import Javs.Codec
import Javs.KeyHistory

/-!
Which of the control packets the server builds the client can read.

The encoder writes the number of acknowledgements in one byte. A packet that owes more than
255 of them is not the packet the client decodes; every other one is.
-/

namespace Javs

open Lib Lib.Proc M

def Effect.packet? : Effect → Option ControlPacket
  | .frag _ p => some p
  | .ack p => some p
  | .reset p => some p
  | _ => none

def packets (log : List Effect) : List ControlPacket := log.filterMap Effect.packet?

lemma packets_snoc (log : List Effect) (e : Effect) :
    packets (log ++ [e]) = packets log ++ e.packet?.toList := by
  rw [packets, List.filterMap_append]
  cases h : e.packet? <;> simp [packets, h]

variable {Conn : Type} {S : VpnServer Conn} {N : ℕ} {w w' : World Conn}

/-- At most `N` acknowledgements are owed, the key ids fit into three bits, and every packet
built so far is one the format can carry. -/
structure Legible (N : ℕ) (w : World Conn) : Prop where
  owed : w.sess.pendingAcks.length ≤ N
  slots : ∀ i s, w.sess.slots i = some s → s.keyId < 8
  rekey : ∀ rk, w.sess.rekey = some rk → rk.keyId < 8
  packets : ∀ p ∈ packets w.log, p.WellFormed

lemma Legible.write (h : Legible N w) (hp : w'.sess.pendingAcks.length ≤ w.sess.pendingAcks.length)
    (hs : w'.sess.slots = w.sess.slots)
    (hr : w'.sess.rekey.map RekeyTrack.keyId = w.sess.rekey.map RekeyTrack.keyId)
    (hl : ∀ p ∈ Javs.packets w'.log, p ∈ Javs.packets w.log ∨ p.WellFormed) : Legible N w' := by
  refine ⟨hp.trans h.owed, hs ▸ h.slots, ?_, fun p hmem => ?_⟩
  · intro rk hrk
    rw [hrk] at hr
    rcases hw : w.sess.rekey with _ | rk'
    · simp [hw] at hr
    · rw [hw] at hr
      exact (Option.some.inj hr) ▸ h.rekey rk' hw
  · rcases hl p hmem with hmem | hp
    · exact h.packets p hmem
    · exact hp

lemma Legible.silent (h : Legible N w) (hp : w'.sess.pendingAcks = w.sess.pendingAcks)
    (hs : w'.sess.slots = w.sess.slots)
    (hr : w'.sess.rekey.map RekeyTrack.keyId = w.sess.rekey.map RekeyTrack.keyId)
    (hl : Javs.packets w'.log = Javs.packets w.log) : Legible N w' :=
  h.write (by rw [hp]) hs hr fun p hmem => .inl (hl ▸ hmem)

lemma packets_tell {e : Effect} (he : e.packet? = none) (log : List Effect) :
    Javs.packets (log ++ [e]) = Javs.packets log := by
  rw [packets_snoc, he]
  exact List.append_nil _

lemma Legible.activeKeyId_lt (h : Legible N w) : w.sess.activeKeyId < 8 := by
  unfold SlotTable.activeKeyId
  rcases hs : w.sess.activeSlot with _ | slot
  · decide
  · exact h.slots _ slot hs

lemma Legible.setSlot (h : Legible N w) {i : Fin 2} {slot : KeySlot}
    (hs : w'.sess.slots = Function.update w.sess.slots i (some slot)) (hk : slot.keyId < 8)
    (hp : w'.sess.pendingAcks = w.sess.pendingAcks) (hr : w'.sess.rekey = w.sess.rekey)
    (hl : Javs.packets w'.log = Javs.packets w.log) : Legible N w' := by
  refine ⟨by rw [hp]; exact h.owed, fun j s hj => ?_, hr ▸ h.rekey, hl ▸ h.packets⟩
  rw [hs] at hj
  by_cases hji : j = i
  · rw [hji, Function.update_self] at hj
    exact Option.some.inj hj ▸ hk
  · rw [Function.update_of_ne hji] at hj
    exact h.slots j s hj

/-! ### Sending -/

def KeepsLegible {α : Type} (N : ℕ) (m : M Conn α) : Prop :=
  Ends (Legible N) m (fun _ => Legible N) (Legible N)

lemma keeps_put {v : World Conn} (h : Legible N v) :
    Ends (fun t => t = w) (put v) (fun _ => Legible N) (Legible N) :=
  ends_put h

lemma keeps_wrapForWire (inner : Bytes) : KeepsLegible N (wrapForWire S inner) := by
  unfold wrapForWire
  refine ends_get_bind fun w hw => ?_
  split
  · refine ends_bind (keeps_put (hw.silent rfl rfl rfl rfl)) fun _ => ?_
    exact ends_ofExcept (fun _ _ _ h => h) fun _ h => h
  · refine ends_bind (keeps_put (hw.silent rfl rfl rfl rfl)) fun _ => ?_
    exact ends_ofExcept (fun _ _ _ h => h) fun _ h => h
  · exact ends_pure fun _ h => h ▸ hw

lemma keeps_transportSend (bytes : Bytes) : KeepsLegible N (transportSend bytes : M Conn Unit) := by
  unfold transportSend
  refine ends_get_bind fun w hw => ?_
  split
  · refine ends_bind (keeps_put (hw.silent rfl rfl rfl rfl)) fun _ => ?_
    split <;> exact ends_throw fun _ h => h
  · exact keeps_put (hw.silent rfl rfl rfl (packets_tell rfl _))

lemma keeps_sendAndTrack (pkt : ControlPacket) : KeepsLegible N (sendAndTrack S pkt) := by
  unfold sendAndTrack
  refine ends_bind (keeps_wrapForWire _) fun wire => ?_
  refine ends_bind (keeps_transportSend _) fun _ => ?_
  refine ends_bind (M := fun _ => Legible N)
    (ends_modify fun w hw => hw.silent rfl rfl rfl (packets_tell rfl _)) fun _ => ?_
  split
  · exact ends_modify fun w hw => hw.silent rfl rfl rfl rfl
  · exact ends_pure fun _ h => h

lemma wellFormed_makeControl {s : Session Conn} {keyId : UInt8} (hk : keyId < 8)
    (hp : s.pendingAcks.length ≤ 255) (chunk : Bytes) :
    (s.makeControl keyId chunk).1.WellFormed where
  control := rfl
  keyId := hk
  acks := hp
  remote := by
    rcases h : s.pendingAcks <;> simp [Session.makeControl, Session.allocPacketId, h]
  packetId := by simp [Session.makeControl]

lemma wellFormed_makeAck (s : Session Conn) {keyId : UInt8} (hk : keyId < 8) {pids : List UInt32}
    (hne : pids ≠ []) (hp : pids.length ≤ 255) : (s.makeAck keyId pids).WellFormed where
  control := rfl
  keyId := hk
  acks := hp
  remote := by simp [Session.makeAck, hne]
  packetId := by simp [Session.makeAck]

lemma keeps_sendChunk (hN : N ≤ 255) {ctx : Ctx} {keyId : UInt8} (hk : keyId < 8) (chunk : Bytes) :
    KeepsLegible N (sendChunk S ctx keyId chunk) := by
  unfold sendChunk
  refine ends_get_bind fun w hw => ?_
  refine ends_bind (keeps_put (hw.write (Nat.zero_le _) rfl rfl ?_)) fun _ => keeps_sendAndTrack _
  intro p hp
  rw [packets_snoc, List.mem_append] at hp
  refine hp.imp_right fun hp => ?_
  rw [List.mem_singleton.mp hp]
  exact wellFormed_makeControl hk (hw.owed.trans hN) chunk

lemma keeps_flushOutgoing (hN : N ≤ 255) : KeepsLegible N (flushOutgoing S) := by
  unfold flushOutgoing
  refine ends_get_bind fun w hw => ?_
  have hw' : Legible N { w with
      sess := { w.sess with tls := (w.sess.tls.takeOutgoing S.rustls).1 }
      log := w.log ++ [.drained .main (w.sess.tls.takeOutgoing S.rustls).2] } :=
    hw.silent rfl rfl rfl (packets_tell rfl _)
  refine ends_bind (keeps_put hw') fun _ => ?_
  split
  · exact ends_forM fun chunk _ => keeps_sendChunk hN hw.activeKeyId_lt chunk
  split
  · rename_i hne
    refine ends_bind (M := fun _ => Legible N) (ends_modify fun v hv => ?_) fun _ => ?_
    · refine hv.write (Nat.zero_le _) rfl rfl fun p hp => ?_
      rw [packets_snoc, List.mem_append] at hp
      refine hp.imp_right fun hp => ?_
      rw [List.mem_singleton.mp hp]
      -- a bare acknowledgement is only sent if there is one to send
      exact wellFormed_makeAck _ hw.activeKeyId_lt (by simpa using hne) (hw.owed.trans hN)
    · refine ends_bind (keeps_wrapForWire _) fun wire => ?_
      refine ends_bind (keeps_transportSend _) fun _ => ?_
      exact ends_modify fun w hw => hw.silent rfl rfl rfl (packets_tell rfl _)
  · exact ends_pure fun _ h => h

lemma keeps_sendPlaintext (data : Bytes) : KeepsLegible N (sendPlaintext S data) := by
  unfold sendPlaintext
  refine ends_get_bind fun w hw => ?_
  refine ends_bind (keeps_put (hw.silent rfl rfl rfl rfl)) fun _ => ?_
  split
  · exact ends_pure fun _ h => h
  · exact ends_throw fun _ h => h

/-! ### The rekey track -/

lemma keeps_flushRekeyOutgoing (hN : N ≤ 255) : KeepsLegible N (flushRekeyOutgoing S) := by
  rw [flushRekeyOutgoing_eq]
  refine ends_get_bind fun w hw => ?_
  rcases hrk : w.sess.rekey with _ | rk
  · exact ends_pure fun _ h => h ▸ hw
  dsimp only
  refine ends_bind (keeps_put (hw.silent rfl rfl (by simp [hrk]) (packets_tell rfl _))) fun _ => ?_
  split
  · exact ends_pure fun _ h => h
  · exact ends_forM fun chunk _ => keeps_sendChunk hN (hw.rekey rk hrk) chunk

lemma keeps_driveRekeyControlPlane : KeepsLegible N (driveRekeyControlPlane S) := by
  rw [driveRekeyControlPlane_eq]
  refine ends_get_bind fun w hw => ?_
  rcases hrk : w.sess.rekey with _ | rk
  · exact ends_pure fun _ h => h ▸ hw
  dsimp only
  split
  · exact ends_pure fun _ h => h ▸ hw
  refine ends_bind (M := fun _ u => u = w) (ends_ofExcept (fun _ _ _ h => h) fun _ h => h ▸ hw)
    fun pop => ?_
  rcases pop with ⟨km, k⟩ | _
  case needMore => exact ends_pure fun _ h => h ▸ hw
  dsimp only
  -- the new slot takes the key id of the track, which was checked when the rekey began
  have hid := hw.rekey rk hrk
  refine ends_bind (M := fun _ u => Legible N u ∧ u.sess.rekey = some rk)
    (ends_modify ?_) fun _ => ?_
  · rintro _ rfl
    exact ⟨hw.setSlot rfl hid rfl rfl (packets_tell rfl _), hrk⟩
  refine ends_bind (M := fun _ u => Legible N u ∧ u.sess.rekey.map RekeyTrack.keyId = some rk.keyId)
    (ends_modify fun u hu => ⟨hu.1.silent rfl rfl (by simp [hu.2]) rfl, rfl⟩) fun _ => ?_
  split
  · exact ends_modify fun u hu => hu.1.silent rfl rfl hu.2.symm (packets_tell rfl _)
  · exact ends_throw fun u hu => hu.1

lemma keeps_finishRekey : KeepsLegible N (finishRekey : M Conn Unit) := by
  rw [finishRekey_eq]
  refine ends_get_bind fun w hw => ?_
  rcases hrk : w.sess.rekey with _ | rk
  · exact ends_pure fun _ h => h ▸ hw
  dsimp only
  split
  · refine keeps_put ⟨hw.owed, ?_, nofun, ?_⟩
    · intro i s hs
      refine hw.slots i s ?_
      rw [← hs]
      exact (congrFun (slots_promoteSlot _ _) i).symm
    · rw [packets_tell rfl]
      exact hw.packets
  · exact ends_pure fun _ h => h ▸ hw

lemma keeps_handleRekeyControl (hN : N ≤ 255) (ctrl : ControlPacket) :
    KeepsLegible N (handleRekeyControl S ctrl) := by
  unfold handleRekeyControl
  refine ends_get_bind fun w hw => ?_
  rcases hrk : w.sess.rekey with _ | rk
  · exact ends_pure fun _ h => h ▸ hw
  dsimp only
  let P : World Conn → Prop := fun u =>
    Legible N u ∧ u.sess.rekey.map RekeyTrack.keyId = some rk.keyId
  have hput : P { w with
      sess := { w.sess with rekey := some { rk with tls := (rk.tls.feed S.rustls ctrl.payload).1 } }
      log := w.log ++ [.feed (.rekey rk.keyId) ctrl] } :=
    ⟨hw.silent rfl rfl (by simp [hrk]) (packets_tell rfl _), rfl⟩
  refine ends_bind (M := fun _ => P) (ends_put hput) fun _ => ?_
  refine ends_bind ((ends_context _ _).conseq (fun _ h => h) (fun _ _ h => h) fun _ h => h.1)
    fun _ => ?_
  have hrest : KeepsLegible N (do
      driveRekeyControlPlane S
      flushRekeyOutgoing S
      finishRekey) :=
    ends_bind keeps_driveRekeyControlPlane fun _ =>
      ends_bind (keeps_flushRekeyOutgoing hN) fun _ => keeps_finishRekey
  split
  · refine ends_bind (M := fun _ => Legible N) (ends_modify fun u hu => ?_) fun _ => hrest
    exact hu.1.silent rfl rfl hu.2.symm (packets_tell rfl _)
  · exact hrest.conseq (fun _ h => h.1) (fun _ _ h => h) fun _ h => h

/-! ### The main track -/

lemma keeps_allocateIp : KeepsLegible N (allocateIp S) := by
  unfold allocateIp
  refine ends_get_bind fun w hw => ?_
  dsimp only
  split
  · exact ends_throw fun _ h => h ▸ hw
  · exact ends_bind (keeps_put (hw.silent rfl rfl rfl rfl)) fun _ => ends_pure fun _ h => h

lemma keeps_chooseIp (cc : Option ClientConfig) : KeepsLegible N (chooseIp S cc) := by
  unfold chooseIp
  refine ends_get_bind fun w hw => ?_
  split
  · split
    · exact ends_throw fun _ h => h ▸ hw
    · exact ends_pure fun _ h => h ▸ hw
  · exact ends_throw fun _ h => h ▸ hw
  · exact keeps_allocateIp.conseq (fun _ h => h ▸ hw) (fun _ _ h => h) fun _ h => h

lemma keeps_assignIpV6 (addr : SocketAddr) : KeepsLegible N (assignIpV6 S addr) := by
  unfold assignIpV6
  refine ends_bind (M := fun _ => Legible N) ?_ fun v6 => ?_
  · unfold allocateIpV6
    refine ends_get_bind fun w hw => ?_
    split
    · exact ends_pure fun _ h => h ▸ hw
    · exact ends_throw fun _ h => h ▸ hw
    · split
      · exact ends_throw fun _ h => h ▸ hw
      · exact ends_bind (keeps_put (hw.silent rfl rfl rfl rfl)) fun _ => ends_pure fun _ h => h
  · rcases v6 with _ | v6
    · exact ends_pure fun _ h => h
    · refine ends_bind (M := fun _ => Legible N) (ends_modify fun w hw => ?_)
        fun _ => ends_pure fun _ h => h
      exact hw.silent rfl rfl rfl (packets_tell rfl _)

lemma keeps_handlePushRequest (addr : SocketAddr) : KeepsLegible N (handlePushRequest S addr) := by
  unfold handlePushRequest
  refine ends_get_bind fun w hw => ?_
  have hassign : KeepsLegible N (assignIp S addr (S.cfg.clientConfig w.sess.clientCn)) :=
    ends_bind (keeps_chooseIp _) fun ip => ends_bind (M := fun _ => Legible N)
      (ends_modify fun w hw => hw.silent rfl rfl rfl (packets_tell rfl _))
      fun _ => ends_pure fun _ h => h
  refine ends_bind (hassign.conseq (fun _ h => h ▸ hw) (fun _ _ h => h) fun _ h => h) fun ip => ?_
  refine ends_bind (keeps_assignIpV6 addr) fun ip6 => ?_
  refine ends_bind (keeps_sendPlaintext _) fun _ => ?_
  exact ends_modify fun w hw => hw.silent rfl rfl rfl rfl

lemma keeps_handleKeyMethod2 (km : ClientKeyMethod2) :
    KeepsLegible N (handleKeyMethod2 S km) := by
  unfold handleKeyMethod2
  refine ends_bind (M := fun _ => Legible N)
    (ends_modify fun w hw => hw.silent rfl rfl rfl rfl) fun _ => ?_
  refine ends_bind (M := fun _ => Legible N) ?_ fun _ => ?_
  · unfold installPrfSlot
    refine ends_get_bind fun w hw => ?_
    refine ends_bind (M := fun slot u => slot.keyId = 0 ∧ u = w)
      (ends_ofExcept (fun slot u h hu => ⟨(prfSlot_ok h).1, hu⟩) fun _ h => h ▸ hw) fun slot => ?_
    rintro u ⟨hk, rfl⟩
    obtain ⟨i, hi⟩ := slots_place u.sess.toSlotTable slot
    have hk8 : slot.keyId < 8 := by rw [hk]; decide
    exact hw.setSlot hi hk8 rfl rfl (packets_tell rfl _)
  · refine ends_get_bind fun w hw => ?_
    refine ends_bind ((keeps_sendPlaintext _).conseq (fun _ h => h ▸ hw) (fun _ _ h => h)
      fun _ h => h) fun _ => ?_
    exact ends_modify fun w hw => hw.silent rfl rfl rfl rfl

lemma keeps_driveRound (addr : SocketAddr) : KeepsLegible N (driveRound S addr) := by
  unfold driveRound
  refine ends_get_bind fun w hw => ?_
  -- every message is drained before it is handled
  have hdrain (n : ℕ) : Ends (fun u => u = w) (drainPlaintext n) (fun _ => Legible N)
      (Legible N) :=
    (ends_drainPlaintext n).conseq (fun _ h => h)
      (fun _ _ ⟨_, h⟩ => h ▸ hw.silent rfl rfl rfl rfl) fun _ h => h ▸ hw
  split
  · refine ends_bind (M := fun _ u => u = w) (ends_ofExcept (fun _ _ _ h => h)
      fun _ h => h ▸ hw) fun pop => ?_
    rcases pop with ⟨km, n⟩ | _
    · refine ends_bind (hdrain _) fun _ => ?_
      exact ends_bind (keeps_handleKeyMethod2 km) fun _ => ends_pure fun _ h => h
    · exact ends_pure fun _ h => h ▸ hw
  · split
    · exact ends_pure fun _ h => h ▸ hw
    · refine ends_bind (hdrain _) fun _ => ?_
      split
      · exact ends_bind (keeps_handlePushRequest addr) fun _ => ends_pure fun _ h => h
      · exact ends_pure fun _ h => h
  · split
    · exact ends_pure fun _ h => h ▸ hw
    · refine ends_bind (hdrain _) fun _ => ?_
      split
      · exact ends_bind (M := fun _ => Legible N)
          (ends_modify fun u hu => hu.silent rfl rfl rfl rfl) fun _ => ends_pure fun _ h => h
      · exact ends_pure fun _ h => h
  · exact ends_pure fun _ h => h ▸ hw

lemma keeps_driveLoop (addr : SocketAddr) (fuel : ℕ) : KeepsLegible N (driveLoop S addr fuel) := by
  induction fuel with
  | zero => exact ends_pure fun _ h => h
  | succ fuel ih =>
    refine ends_bind (keeps_driveRound addr) fun goOn => ?_
    cases goOn with
    | true => exact ih
    | false => exact ends_pure fun _ h => h

lemma keeps_handleMainControl (hN : N ≤ 255) (addr : SocketAddr) (ctrl : ControlPacket) :
    KeepsLegible N (handleMainControl S addr ctrl) := by
  unfold handleMainControl
  refine ends_get_bind fun w hw => ?_
  dsimp only
  refine ends_bind (keeps_put (hw.silent rfl rfl rfl (packets_tell rfl _))) fun _ => ?_
  refine ends_bind (ends_context _ _) fun _ => ?_
  have hrest : KeepsLegible N (do
      driveControlPlane S addr
      flushOutgoing S) := by
    refine ends_bind (ends_get_bind fun u hu => ?_) fun _ => keeps_flushOutgoing hN
    exact (keeps_driveLoop addr _).conseq (fun _ h => h ▸ hu) (fun _ _ h => h) fun _ h => h
  split
  · refine ends_bind (M := fun _ => Legible N) (ends_modify fun u hu => ?_) fun _ => hrest
    unfold Session.finalizeKeys
    split <;> exact hu.silent rfl rfl rfl (packets_tell rfl _)
  · exact hrest

/-! ### Dispatch -/

/-- How many acknowledgements are owed once a packet with this id is noted. -/
def Session.owes (s : Session Conn) : Option UInt32 → ℕ
  | some pid =>
    if s.receivedPids.contains pid then s.pendingAcks.length else s.pendingAcks.length + 1
  | none => s.pendingAcks.length

lemma Legible.noteReceived (h : Legible N w) (pid : UInt32) (now : ℕ) :
    Legible (w.sess.owes (some pid)) { w with sess := w.sess.noteReceived pid now } := by
  by_cases hpid : w.sess.receivedPids.contains pid = true
  · simp only [Session.noteReceived, Session.owes, if_pos hpid]
    exact ⟨le_rfl, h.slots, h.rekey, h.packets⟩
  · simp only [Session.noteReceived, Session.owes, if_neg hpid]
    exact ⟨by simp, h.slots, h.rekey, h.packets⟩

lemma ends_acceptControl (ctrl : ControlPacket) (replayPid : Option UInt32) (k : ℕ) :
    Ends (fun w => Legible N w ∧ w.sess.owes ctrl.packetId = k) (acceptControl ctrl replayPid)
      (fun _ (w : World Conn) => Legible k w) (Legible N) := by
  let P : World Conn → Prop := fun w => Legible N w ∧ w.sess.owes ctrl.packetId = k
  refine ends_bind (M := fun _ => P) (ends_modify fun w hw => ⟨hw.1.silent rfl rfl rfl rfl, hw.2⟩)
    fun _ => ?_
  refine ends_bind (M := fun _ => P) ?_ fun _ => ?_
  · unfold checkReplay
    split
    · exact ends_pure fun _ h => h
    · refine ends_get_bind fun w hw => ?_
      dsimp only
      refine ends_bind (M := fun _ => P) (ends_put ⟨hw.1.silent rfl rfl rfl rfl, hw.2⟩) fun _ => ?_
      split
      · exact ends_pure fun _ h => h
      · exact ends_throw fun _ h => h.1
  refine ends_bind (M := fun _ => P) ?_ fun _ => ?_
  · unfold processAcks
    split
    · exact ends_pure fun _ h => h
    · refine ends_modify fun w hw => ?_
      unfold Session.processAcks
      split
      · exact ⟨hw.1.silent rfl rfl rfl (packets_tell rfl _), hw.2⟩
      · exact ⟨hw.1.silent rfl rfl rfl (packets_tell rfl _), hw.2⟩
  · unfold Javs.noteReceived
    split
    -- noting the packet owes one acknowledgement more, unless it was received before
    · rename_i pid hpid
      refine ends_modify fun w hw => ?_
      rw [← hw.2, hpid]
      exact hw.1.noteReceived pid _
    · rename_i hpid
      refine ends_pure fun w hw => ?_
      rw [← hw.2, hpid]
      exact ⟨le_rfl, hw.1.slots, hw.1.rekey, hw.1.packets⟩

lemma Legible.reset (h : Legible N w) {pkt : ControlPacket} (hpkt : pkt.WellFormed)
    (hl : w'.log = w.log ++ [.reset pkt]) (hp : w'.sess.pendingAcks = w.sess.pendingAcks)
    (hs : w'.sess.slots = w.sess.slots) (hr : ∀ rk, w'.sess.rekey = some rk → rk.keyId < 8) :
    Legible N w' := by
  refine ⟨by rw [hp]; exact h.owed, hs ▸ h.slots, hr, fun p hmem => ?_⟩
  rw [hl, packets_snoc, List.mem_append] at hmem
  rcases hmem with hmem | hmem
  · exact h.packets p hmem
  · rw [List.mem_singleton.mp hmem]
    exact hpkt

lemma keeps_handleSoftReset {ctrl : ControlPacket} (hkey : ctrl.keyId < 8) :
    KeepsLegible N (handleSoftReset S ctrl) := by
  unfold handleSoftReset
  refine ends_get_bind fun w hw => ?_
  split
  · exact ends_pure fun _ h => h ▸ hw
  split
  · exact ends_pure fun _ h => h ▸ hw
  split
  · exact ends_throw fun _ h => h ▸ hw
  · refine ends_bind (keeps_put (hw.reset ?_ rfl rfl rfl ?_)) fun _ => keeps_sendAndTrack _
    · exact ⟨rfl, hkey, by simp, by simp, by simp⟩
    · intro rk hrk
      obtain rfl := Option.some.inj hrk
      exact hkey

lemma keeps_dispatch (addr : SocketAddr) {ctrl : ControlPacket} (hkey : ctrl.keyId < 8)
    (hN : ctrl.op = .controlV1 → N ≤ 255) : KeepsLegible N (dispatch S addr ctrl) := by
  unfold dispatch
  split
  · rename_i hop
    refine ends_get_bind fun w hw => ?_
    split
    · exact (keeps_handleRekeyControl (hN hop) ctrl).conseq (fun _ h => h ▸ hw) (fun _ _ h => h)
        fun _ h => h
    · exact (keeps_handleMainControl (hN hop) addr ctrl).conseq (fun _ h => h ▸ hw)
        (fun _ _ h => h) fun _ h => h
  · exact keeps_handleSoftReset hkey
  · exact ends_pure fun _ h => h

/-! ### The other events -/

lemma keeps_buildDataPacket (plaintext : Bytes) : KeepsLegible N (buildDataPacket S plaintext) := by
  unfold buildDataPacket
  refine ends_get_bind fun w hw => ?_
  rcases hs : w.sess.activeSlot with _ | slot <;> dsimp only
  · exact ends_throw fun _ h => h ▸ hw
  · refine ends_bind (keeps_put (hw.setSlot rfl (hw.slots _ slot hs) rfl rfl (packets_tell rfl _)))
      fun _ => ?_
    refine ends_bind (ends_ofExcept (fun _ _ _ h => h) fun _ h => h) fun ct => ?_
    exact ends_pure fun _ h => h

lemma keeps_send (plaintext : Bytes) :
    KeepsLegible N (do let bytes ← buildDataPacket S plaintext; transportSend bytes) :=
  ends_bind (keeps_buildDataPacket plaintext) fun bytes => keeps_transportSend bytes

lemma keeps_rekeyTick : KeepsLegible N (rekeyTick S) := by
  unfold rekeyTick
  refine ends_get_bind fun w hw => ?_
  split
  · exact ends_pure fun _ h => h ▸ hw
  split
  · exact ends_pure fun _ h => h ▸ hw
  split
  · exact ends_pure fun _ h => h ▸ hw
  · have hkey : (w.sess.activeKeyId + 1) &&& 7 < 8 := and_seven_lt _
    refine ends_bind (keeps_put (hw.reset ?_ rfl rfl rfl ?_)) fun _ => keeps_sendAndTrack _
    · exact ⟨rfl, hkey, by simp, by simp, by simp⟩
    · intro rk hrk
      obtain rfl := Option.some.inj hrk
      exact hkey

lemma keeps_rewrap (inners : List Bytes) : KeepsLegible N (rewrap S inners) := by
  induction inners with
  | nil => exact ends_pure fun _ h => h
  | cons inner rest ih =>
    have hwrap : KeepsLegible N (do return [← wrapForWire S inner]) :=
      ends_bind (keeps_wrapForWire inner) fun _ => ends_pure fun _ h => h
    refine ends_bind (ends_recover hwrap fun _ h => h) fun wire => ?_
    exact ends_bind ih fun _ => ends_pure fun _ h => h

lemma keeps_retransmitTick : KeepsLegible N (retransmitTick S) := by
  unfold retransmitTick
  refine ends_get_bind fun w hw => ?_
  dsimp only
  refine ends_bind (keeps_put (hw.silent rfl rfl rfl rfl)) fun _ => ?_
  refine ends_bind (keeps_rewrap _) fun wires => ends_forM fun bytes _ => ?_
  exact ends_recover (keeps_transportSend bytes) fun _ h => h

lemma keeps_forwardLocked (ipPkt : Bytes) : KeepsLegible N (forwardLocked S ipPkt) := by
  unfold forwardLocked
  refine ends_get_bind fun w hw => ?_
  split
  · exact ends_pure fun _ h => h ▸ hw
  · exact (keeps_send ipPkt).conseq (fun _ h => h ▸ hw) (fun _ _ h => h) fun _ h => h

lemma keeps_pingTick : KeepsLegible N (pingTick S) := by
  unfold pingTick
  refine ends_get_bind fun w hw => ?_
  split
  · exact ends_pure fun _ h => h ▸ hw
  · exact (keeps_send _).conseq (fun _ h => h ▸ hw) (fun _ _ h => h) fun _ h => h

lemma keeps_shutdownClient (hN : N ≤ 255) : KeepsLegible N (shutdownClient S) := by
  unfold shutdownClient
  refine ends_get_bind fun w hw => ?_
  split
  · exact ends_pure fun _ h => h ▸ hw
  · refine ends_bind ?_ fun _ => keeps_flushOutgoing hN
    exact (keeps_sendPlaintext _).conseq (fun _ h => h ▸ hw) (fun _ _ h => h) fun _ h => h

lemma Legible.decryptAndForward (h : Legible N w) (pkt : Bytes) :
    Legible N (decryptAndForward S pkt w).2 := by
  rcases decryptAndForward_cases (S := S) w pkt with ⟨e, he⟩ | ⟨dp, i, slot, plaintext, ho, he⟩
  · rw [he]
    exact h
  · have hopened : Legible N (w.opened pkt dp i slot) :=
      h.setSlot rfl (h.slots i slot ho.found) rfl rfl (packets_tell rfl _)
    rcases he with he | he <;> rw [he]
    · exact hopened
    · exact hopened.silent rfl rfl rfl (packets_tell rfl _)

/-! ### Runs -/

/-- `handle_control_packet` parses what it handles. -/
def Event.Parsed : Event Conn → Prop
  | .control _ ctrl _ => ∃ b, ControlPacket.parse b = .ok ctrl
  | _ => True

/-- Where acknowledgements go out, the count byte has room for those owed. -/
def Room (w : World Conn) : Event Conn → Prop
  | .control _ ctrl _ => ctrl.op = .controlV1 → w.sess.owes ctrl.packetId ≤ 255
  | .shutdown _ => w.sess.pendingAcks.length ≤ 255
  | _ => True

instance (w : World Conn) (e : Event Conn) : Decidable (Room w e) := by
  unfold Room
  split <;> infer_instance

variable {addr : SocketAddr}

lemma Legible.handleLocked (h : Legible N w) {ctrl : ControlPacket} (replayPid : Option UInt32)
    (hkey : ctrl.keyId < 8) (hroom : ctrl.op = .controlV1 → w.sess.owes ctrl.packetId ≤ 255) :
    ∃ k, Legible k (handleLocked S addr ctrl replayPid w).2 := by
  have haccept := (ends_acceptControl (N := N) ctrl replayPid (w.sess.owes ctrl.packetId)) w
    ⟨h, rfl⟩
  unfold Javs.handleLocked
  rcases hrun : acceptControl ctrl replayPid w with ⟨e | u, v⟩ <;> rw [hrun] at haccept
  · rw [bind_error hrun]
    exact ⟨N, haccept⟩
  · rw [bind_ok hrun]
    exact ⟨_, (keeps_dispatch addr hkey hroom).after haccept⟩

lemma Legible.step (h : Legible N w) {e : Event Conn} (hin : e.Parsed) (hroom : Room w e) :
    ∃ k, Legible k (step S addr w e) := by
  have henv (env : Env Conn) : Legible N { w with env } := h.silent rfl rfl rfl rfl
  cases e with
  | control env ctrl replayPid =>
    obtain ⟨b, hb⟩ := hin
    exact (henv env).handleLocked replayPid (ControlPacket.parse_sound hb).1.keyId hroom
  | data env pkt => exact ⟨N, (henv env).decryptAndForward pkt⟩
  | tun env ipPkt => exact ⟨N, (keeps_forwardLocked ipPkt).after (henv env)⟩
  | ping env => exact ⟨N, keeps_pingTick.after (henv env)⟩
  | rekey env => exact ⟨N, keeps_rekeyTick.after (henv env)⟩
  | retransmit env => exact ⟨N, keeps_retransmitTick.after (henv env)⟩
  | shutdown env =>
    have hlen : Legible w.sess.pendingAcks.length { w with env } :=
      ⟨le_rfl, h.slots, h.rekey, h.packets⟩
    exact ⟨_, (keeps_shutdownClient hroom).after hlen⟩
  | shared tab => exact ⟨N, h.silent rfl rfl rfl rfl⟩

lemma legible_started (S : VpnServer Conn) (o : Opening Conn) : Legible 0 (started S o) := by
  unfold started greet
  refine Ends.after (P := fun w => Legible 0 w ∧ w.sess.rekey = none)
    (ends_get_bind fun w hw => ?_) ⟨⟨le_rfl, nofun, nofun, nofun⟩, rfl⟩
  dsimp only
  refine ends_bind (keeps_put (hw.1.reset ?_ rfl rfl rfl ?_)) fun _ => keeps_sendAndTrack _
  · exact ⟨rfl, (by decide : (0 : UInt8) < 8), by simp [Session.makeHardResetReply],
      by simp [Session.makeHardResetReply], by simp [Session.makeHardResetReply]⟩
  · intro rk hrk
    rw [show w.sess.rekey = some rk from hrk] at hw
    cases hw.2

/-- **The client reads the packets the server builds.** As long as no more than 255
acknowledgements are owed where they go out, every control packet built decodes to itself. -/
theorem packets_decode (S : VpnServer Conn) (addr : SocketAddr) (o : Opening Conn)
    (es : List (Event Conn)) (hin : ∀ e ∈ es, e.Parsed)
    (hroom : AllMeet (step S addr) Room (started S o) es) :
    ∀ p ∈ packets (run (step S addr) (started S o) es).log,
      ControlPacket.parse p.encode = .ok p := by
  have hrun : ∃ k, Legible k (run (step S addr) (started S o) es) := by
    refine run_keeps (I := fun w => ∃ k, Legible k w) (C := fun w e => e.Parsed ∧ Room w e) ?_
      ⟨0, legible_started S o⟩ ?_
    · rintro w e ⟨k, hk⟩ ⟨hparsed, hfits⟩
      exact hk.step hparsed hfits
    · exact fun x hx => ⟨hin x.2 (mem_of_mem_trace _ hx), hroom x hx⟩
  obtain ⟨k, hk⟩ := hrun
  exact fun p hp => ControlPacket.parse_encode (hk.packets p hp)

lemma parsed_clientPacket {op : OpCode} (hop : op.isControl) (hack : op ≠ .ackV1)
    (env : Env Plain) (pid : UInt32) (payload : Bytes) (replayPid : Option UInt32) :
    (Event.control env (clientPacket op 0 pid payload) replayPid).Parsed :=
  ⟨_, ControlPacket.parse_encode
    ⟨hop, (by decide : (0 : UInt8) < 8), by simp [clientPacket], by simp [clientPacket],
      by simp [clientPacket, hack]⟩⟩

lemma parsed_establishing : establishing.Parsed := parsed_clientPacket rfl (by decide) _ _ _ _

/-- The packets of a session that establishes itself decode. -/
theorem packets_decode_establishing :
    let log := (run (step plainServer plainAddr) (started plainServer plainOpening)
      [establishing]).log
    packets log ≠ [] ∧ ∀ p ∈ packets log, ControlPacket.parse p.encode = .ok p := by
  refine ⟨by decide +kernel, packets_decode plainServer plainAddr plainOpening [establishing] ?_
    (by decide +kernel)⟩
  intro e he
  rw [List.mem_singleton.mp he]
  exact parsed_establishing

def unhandled (n : ℕ) : List (Event Plain) :=
  (List.range n).map fun i =>
    .control (plainEnv 1) (clientPacket .controlWkcV1 0 (UInt32.ofNat (i + 1)) []) none

def World.heard (w : World Plain) (n : ℕ) : World Plain :=
  let ids := (List.range n).map fun i => UInt32.ofNat (i + 1)
  { w with
    sess := { w.sess with
      receivedPids := ids.reverse
      pendingAcks := ids
      lastSeen := 0 }
    env := plainEnv 1 }

lemma run_unhandled {w : World Plain} (hw : w.heard 0 = w) {n : ℕ} (hn : n < 2 ^ 32) :
    run (step plainServer plainAddr) w (unhandled n) = w.heard n := by
  induction n with
  | zero => exact hw.symm
  | succ n ih =>
    have hlast : unhandled (n + 1) = unhandled n ++
        [.control (plainEnv 1) (clientPacket .controlWkcV1 0 (UInt32.ofNat (n + 1)) []) none] := by
      simp [unhandled, List.range_succ]
    have hnew : ¬ (w.heard n).sess.receivedPids.contains (UInt32.ofNat (n + 1)) = true := by
      intro hmem
      obtain ⟨i, hi, heq⟩ : ∃ i < n, UInt32.ofNat (i + 1) = UInt32.ofNat (n + 1) := by
        simpa [World.heard] using hmem
      have hnat := congrArg UInt32.toNat heq
      rw [UInt32.toNat_ofNat', UInt32.toNat_ofNat'] at hnat
      omega
    have hstep : step plainServer plainAddr (w.heard n) (.control (plainEnv 1)
        (clientPacket .controlWkcV1 0 (UInt32.ofNat (n + 1)) []) none) =
        { w.heard n with sess := (w.heard n).sess.noteReceived (UInt32.ofNat (n + 1)) 0 } := rfl
    rw [hlast, run_append, ih (by omega), run_cons, hstep, Session.noteReceived, if_neg hnew]
    simp [World.heard, List.range_succ]

/-- The ids of 256 unhandled packets pile up; the acknowledgement that finally goes out for
them and the packet that triggers it carries 257 ids, and 1 in its count byte. -/
theorem ack_undecodable :
    let es := unhandled 256 ++ [.control (plainEnv 1) (clientPacket .controlV1 0 300 []) none]
    (∀ e ∈ es, e.Parsed) ∧
      ∃ p ∈ packets (run (step plainServer plainAddr) (started plainServer plainOpening) es).log,
        p.acks.length = 257 ∧ ControlPacket.parse p.encode ≠ .ok p := by
  refine ⟨fun e he => ?_, ?_⟩
  · rcases List.mem_append.mp he with he | he
    · obtain ⟨i, -, rfl⟩ := List.mem_map.mp he
      exact parsed_clientPacket rfl (by decide) _ _ _ _
    · rw [List.mem_singleton.mp he]
      exact parsed_clientPacket rfl (by decide) _ _ _ _
  · rw [run_append, run_unhandled rfl (by decide)]
    decide +kernel

end Javs
