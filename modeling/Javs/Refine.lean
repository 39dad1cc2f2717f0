import Javs.Abstract

/-!
The handlers are sequences of moves.

Each handler is taken apart by the rules for its combinators; what is left at the leaves is
that one write to the world is one move, or none, of the abstract session.
-/

namespace Javs

open Lib Lib.Proc Relation M

variable {Conn : Type} (S : VpnServer Conn) (addr : SocketAddr) (n : ℕ) (l : Lane)

/-- A stretch of a handler, as the abstract session sees it. -/
def Steps (w w' : World Conn) : Prop := ReflTransGen (Move S addr n l) w.abs w'.abs

variable {S addr n l} {w w' : World Conn}

lemma Steps.of_eq (h : w'.abs = w.abs) : Steps S addr n l w w' := by
  unfold Steps; rw [h]

lemma Steps.single (h : Move S addr n l w.abs w'.abs) : Steps S addr n l w w' :=
  ReflTransGen.single h

lemma Steps.move {a : Abs} (h : Move S addr n l w.abs a) (ha : w'.abs = a) :
    Steps S addr n l w w' :=
  Steps.single (ha ▸ h)

lemma Steps.of_reflTransGen (h : ReflTransGen (Steps S addr n l) w w') : Steps S addr n l w w' := by
  induction h with
  | refl => exact .of_eq rfl
  | tail _ h1 ih => exact ReflTransGen.trans ih h1

lemma steps_of_meets {α : Type} {P : World Conn → Prop} {m : M Conn α} {Q : α → World Conn → Prop}
    (h : Meets P (Steps S addr n l) m Q) (hw : P w) {a : Abs} (ha : w.abs = a) :
    ReflTransGen (Move S addr n l) a (m w).2.abs :=
  ha ▸ Steps.of_reflTransGen (h w hw).1

lemma abs_rekey_log {t : Track} (h : w.abs.rekey = some t) (e : Effect) :
    { w.abs with rekey := some t, log := w.log ++ [e] } = w.abs.tell e := by
  unfold Abs.tell
  rw [← h]
  rfl

/-! ### Writes that are no move, or one -/

section Writes

variable {P : World Conn → Prop} {Q : PUnit → World Conn → Prop}

lemma put_bind {β : Type} (v : World Conn) (f : Unit → M Conn β) :
    (put v >>= f) w = f () v := rfl

lemma meets_put {v : World Conn} (hr : ∀ w, P w → Steps S addr n l w v) (hq : Q () v) :
    Meets P (Steps S addr n l) (put v) Q :=
  fun w hw => ⟨.single (hr w hw), fun _ _ => hq⟩

lemma meets_modifySess {f : Session Conn → Session Conn}
    (hr : ∀ w, P w → Steps S addr n l w { w with sess := f w.sess })
    (hq : ∀ w, P w → Q () { w with sess := f w.sess }) :
    Meets P (Steps S addr n l) (modifySess f) Q :=
  meets_modify hr hq

lemma meets_emit {e : Effect} (hr : ∀ w, P w → Move S addr n l w.abs (w.abs.tell e))
    (hq : ∀ w, P w → Q () { w with log := w.log ++ [e] }) :
    Meets P (Steps S addr n l) (emit e) Q :=
  meets_modify (fun w hw => Steps.single (hr w hw)) hq

lemma meets_context {α : Type} {msg : String} {x : Res α} {Q : α → World Conn → Prop}
    (h : ∀ a w, P w → Q a w) : Meets P (Steps S addr n l) (context msg x) Q := by
  unfold context
  split
  · exact meets_throw _
  · exact meets_ofExcept fun a w _ hw => h a w hw

lemma ends_put {E : World Conn → Prop} {v : World Conn} (h : Q () v) : Ends P (put v) Q E :=
  fun _ _ => h

lemma ends_context {α : Type} (msg : String) (x : Res α) :
    Ends P (context msg x) (fun _ => P) P := by
  unfold context
  split
  · exact ends_throw fun _ h => h
  · exact ends_ofExcept (fun _ _ _ h => h) fun _ h => h

lemma meets_recover {α : Type} {m : M Conn α} {a : α} {Q : α → World Conn → Prop}
    (hm : Meets P (Steps S addr n l) m Q) (h : ∀ w, Q a w) :
    Meets P (Steps S addr n l) (recover m a) Q := by
  refine meets_tryCatch hm fun e => ?_
  cases e with
  | bail => exact meets_pure fun w _ => h w
  | panic => exact meets_throw _

lemma ends_recover {α : Type} {m : M Conn α} {a : α} {Q : α → World Conn → Prop}
    {E : World Conn → Prop} (hm : Ends P m Q E) (h : ∀ w, E w → Q a w) :
    Ends P (recover m a) Q E := by
  refine ends_tryCatch hm fun e => ?_
  cases e with
  | bail => exact ends_pure h
  | panic => exact ends_throw fun _ hw => hw

lemma ends_drainPlaintext {w : World Conn} (k : ℕ) :
    Ends (fun u => u = w) (drainPlaintext k) (fun _ u => ∃ tls, u = w.setTls tls)
      fun u => u = w := by
  refine ends_get_bind fun u hu => ?_
  subst hu
  refine ends_bind (M := fun _ v => v = u) (ends_ofExcept (fun _ _ _ h => h) fun _ h => h)
    fun tls => ?_
  exact ends_put ⟨tls, rfl⟩

end Writes

/-! ### Sending -/

/-- What sending leaves alone: everything but the log and the packet id counter. -/
def Abs.core (a : Abs) : Abs := { a with nextPid := 0, log := [] }

@[simp] lemma Abs.core_tell (a : Abs) (e : Effect) : (a.tell e).core = a.core := rfl

lemma built_append (l₁ l₂ : List Effect) : built (l₁ ++ l₂) = built l₁ ++ built l₂ := by
  simp [built]

/-- Insensitive to bytes on the wire, and to what the abstract session does not show. -/
def Stable (P : World Conn → Prop) : Prop :=
  ∀ w w' : World Conn, (w'.abs = w.abs ∨ ∃ bytes, w'.abs = w.abs.tell (.wire bytes)) → P w → P w'

lemma stable_true : Stable (fun _ : World Conn => True) := fun _ _ _ _ => trivial

section Stable

variable {P : World Conn → Prop}

lemma meets_wrapForWire (hP : Stable P) (inner : Bytes) :
    Meets P (Steps S addr n l) (wrapForWire S inner) fun _ => P := by
  unfold wrapForWire
  refine meets_get_bind fun w hw => ?_
  split
  · refine meets_bind (M := fun _ => P) (meets_put ?_ (hP w _ (.inl rfl) hw)) fun _ => ?_
    · rintro _ rfl; exact .of_eq rfl
    · exact meets_ofExcept fun _ _ _ h => h
  · refine meets_bind (M := fun _ => P) (meets_put ?_ (hP w _ (.inl rfl) hw)) fun _ => ?_
    · rintro _ rfl; exact .of_eq rfl
    · exact meets_ofExcept fun _ _ _ h => h
  · exact meets_pure fun _ h => h ▸ hw

lemma meets_transportSend (hP : Stable P) (bytes : Bytes) :
    Meets P (Steps S addr n l) (transportSend bytes) fun _ => P := by
  unfold transportSend
  refine meets_get_bind fun w hw => ?_
  split
  · refine meets_bind (M := fun _ => P) (meets_put ?_ (hP w _ (.inl rfl) hw)) fun _ => ?_
    · rintro _ rfl; exact .of_eq rfl
    · split <;> exact meets_throw _
  · refine meets_put ?_ (hP w _ (.inr ⟨bytes, rfl⟩) hw)
    rintro _ rfl
    exact Steps.single (.wire _ _ _)

end Stable

/-- `pkt` may go out while the rest of the session is `c`. -/
def Ready (c : Abs) (pkt : ControlPacket) (w : World Conn) : Prop :=
  w.abs.core = c ∧ (pkt.packetId = none ∨ pkt ∈ built w.log)

variable {c : Abs} {pkt : ControlPacket}

lemma Ready.log (h : Ready c pkt w) (e : Effect) (hw : w'.abs = w.abs.tell e) : Ready c pkt w' := by
  have hl : w'.log = w.log ++ [e] := congrArg Abs.log hw
  refine ⟨by rw [hw, Abs.core_tell, h.1], ?_⟩
  rw [hl, built_append, List.mem_append]
  exact h.2.imp_right .inl

lemma stable_ready : Stable (fun w : World Conn => Ready c pkt w) := by
  rintro w w' (hw | ⟨bytes, hw⟩) h
  · have hl : w'.log = w.log := congrArg Abs.log hw
    exact ⟨by rw [hw, h.1], by rw [hl]; exact h.2⟩
  · exact h.log _ hw

lemma meets_sent (bytes : Bytes) :
    Meets (Ready c pkt) (Steps S addr n l)
      (do let wire ← wrapForWire S bytes; transportSend wire; emit (.sent pkt))
      fun _ => Ready c pkt := by
  refine meets_bind (meets_wrapForWire stable_ready _) fun wire => ?_
  refine meets_bind (meets_transportSend stable_ready _) fun _ => ?_
  exact meets_emit (fun w hw => .sent _ _ _ hw.2) fun w hw => hw.log _ rfl

lemma meets_sendAndTrack :
    Meets (Ready c pkt) (Steps S addr n l) (sendAndTrack S pkt)
      fun _ w => w.abs.core = c := by
  unfold sendAndTrack
  refine meets_bind (meets_wrapForWire stable_ready _) fun wire => ?_
  refine meets_bind (meets_transportSend stable_ready _) fun _ => ?_
  refine meets_bind (M := fun _ => Ready c pkt)
    (meets_emit (fun w hw => .sent _ _ _ hw.2) fun w hw => hw.log _ rfl) fun _ => ?_
  split
  · exact meets_modify (fun w _ => .of_eq rfl) fun w hw => hw.1
  · exact meets_pure fun w hw => hw.1

lemma meets_sendChunk {ctx : Ctx} {keyId : UInt8} (chunk : Bytes)
    (hfrag : ∀ a pkt, a.core = c → pkt.keyId = keyId → pkt.packetId = some a.nextPid →
      Move S addr n l a (a.build (.frag ctx pkt))) :
    Meets (fun w => w.abs.core = c) (Steps S addr n l) (sendChunk S ctx keyId chunk)
      fun _ w => w.abs.core = c := by
  unfold sendChunk
  refine meets_get_bind fun w hw => ?_
  refine meets_bind (M := fun _ => Ready c (w.sess.makeControl keyId chunk).1)
    (meets_put ?_ ⟨hw, .inr ?_⟩) fun _ => meets_sendAndTrack
  · rintro _ rfl
    exact Steps.single (hfrag _ _ hw rfl rfl)
  · exact List.mem_filterMap.mpr
      ⟨.frag ctx _, List.mem_append_right _ (List.mem_singleton_self _), rfl⟩

lemma meets_flushOutgoing (hl : l = .main ∨ l = .flush) :
    Meets (fun w => w.abs.core = c) (Steps S addr n l) (flushOutgoing S)
      fun _ w => w.abs.core = c := by
  unfold flushOutgoing
  refine meets_get_bind fun w hw => ?_
  refine meets_bind (M := fun _ w => w.abs.core = c) (meets_put ?_ hw) fun _ => ?_
  · rintro _ rfl
    exact Steps.single (.drained _ _ _ hl)
  · have hk : w.sess.activeKeyId = c.table.activeKeyId := by rw [← hw]; rfl
    split
    · refine meets_forM fun chunk _ => meets_sendChunk chunk fun a pkt ha hkey hpid => ?_
      exact .frag _ _ _ hl (by rw [hkey, hk, ← ha]; rfl) hpid
    · split
      · refine meets_bind (M := fun _ => Ready c (w.sess.makeAck w.sess.activeKeyId
          w.sess.pendingAcks)) (meets_modify (fun v hv => Steps.single (.ack _ _ _ hl ?_))
          fun v hv => ⟨hv, .inl rfl⟩) fun _ => ?_
        · exact hk.trans (by rw [← hv]; rfl)
        · exact (meets_sent _).conseq (fun _ h => h) fun _ _ h => h.1
      · exact meets_pure fun _ h => h

lemma meets_flushRekeyOutgoing :
    Meets (fun w => w.abs.core = c) (Steps S addr n .rekey) (flushRekeyOutgoing S)
      fun _ w => w.abs.core = c := by
  rw [flushRekeyOutgoing_eq]
  refine meets_get_bind fun w hw => ?_
  rcases hrk : w.sess.rekey with _ | rk
  · exact meets_pure fun _ h => h ▸ hw
  have hc : c.rekey = some rk.track := by rw [← hw]; simp [World.abs, Abs.core, hrk]
  have ht : w.abs.rekey = some rk.track := by simp [World.abs, hrk]
  refine meets_bind (M := fun _ w => w.abs.core = c) (meets_put ?_ ?_) fun _ => ?_
  · rintro _ rfl
    exact .move (.rkDrained _ rk.track _ ht) (abs_rekey_log ht _)
  · exact (congrArg Abs.core (abs_rekey_log ht _)).trans hw
  · split
    · exact meets_pure fun _ h => h
    · refine meets_forM fun chunk _ => meets_sendChunk chunk fun a pkt ha hkey hpid => ?_
      exact .rkFrag _ rk.track _ (by rw [← hc, ← ha]; rfl) hkey hpid

lemma meets_drainPlaintext (k : ℕ) :
    Meets (fun u => u = w) (Steps S addr n l) (drainPlaintext k)
      fun _ u => ∃ tls, u = w.setTls tls := by
  unfold drainPlaintext
  refine meets_get_bind fun u hu => ?_
  subst hu
  refine meets_bind (M := fun _ v => v = u) (meets_ofExcept fun _ _ _ h => h) fun tls => ?_
  refine meets_put ?_ ⟨tls, rfl⟩
  rintro _ rfl
  exact .of_eq rfl

lemma meets_sendPlaintext (data : Bytes) :
    Meets (fun w => w.abs = c) (Steps S addr n l) (sendPlaintext S data)
      fun _ w => w.abs = c := by
  unfold sendPlaintext
  refine meets_get_bind fun w hw => ?_
  refine meets_bind (M := fun _ w => w.abs = c) (meets_put ?_ hw) fun _ => ?_
  · rintro _ rfl
    exact .of_eq rfl
  · split
    · exact meets_pure fun _ h => h
    · exact meets_throw _

/-! ### The rekey track -/

lemma installs_append (l₁ l₂ : List Effect) : installs (l₁ ++ l₂) = installs l₁ ++ installs l₂ := by
  simp [installs]

lemma abs_rekey {t : Track} (h : w.abs.rekey = some t) :
    { w.abs with rekey := some t } = w.abs := by
  rw [← h]

lemma meets_driveRekeyControlPlane :
    Meets (fun _ => True) (Steps S addr n .rekey) (driveRekeyControlPlane S)
      fun _ _ => True := by
  rw [driveRekeyControlPlane_eq]
  refine meets_get_bind fun w _ => ?_
  rcases hrk : w.sess.rekey with _ | rk
  · exact meets_pure fun _ _ => trivial
  have ht : w.abs.rekey = some rk.track := by simp [World.abs, hrk]
  dsimp only
  split
  · exact meets_pure fun _ _ => trivial
  rename_i hst
  have hkx : rk.track.state = .keyExchange := not_not.mp hst
  refine meets_bind (M := fun _ u => u = w) (meets_ofExcept fun _ _ _ h => h) fun pop => ?_
  rcases pop with ⟨km, k⟩ | _
  case needMore => exact meets_pure fun _ _ => trivial
  dsimp only
  generalize hslot : KeySlot.fresh rk.keyId _ = slot
  -- the slot installed is new, of the exchange under way and derived from its secrets
  have hk : slot.keyId = rk.track.keyId := by rw [← hslot]; rfl
  have hf : slot.IsFresh := by rw [← hslot]; exact KeySlot.isFresh_fresh _ _
  have hd : S.prims.Derives slot.cipher := by rw [← hslot]; exact ⟨_, _, _, _, _, _, _, rfl⟩
  obtain ⟨a, ha⟩ : ∃ a : Abs, a = { w.abs with table := w.abs.table.installSlot slot }.tell
    (.installed slot) := ⟨_, rfl⟩
  have har : a.rekey = some rk.track := by rw [ha]; exact ht
  refine meets_bind (M := fun _ u => u.abs = a) (meets_modify ?_ ?_) fun _ => ?_
  · rintro _ rfl
    exact Steps.single (.rkInstalled _ rk.track slot ht hkx hk hf hd)
  · rintro _ rfl
    exact ha.symm
  refine meets_bind (M := fun _ u => u.abs = a) (meets_modifySess ?_ ?_) fun _ => ?_
  · intro u hu
    exact .of_eq (abs_rekey (hu ▸ har))
  · intro u hu
    exact (abs_rekey (hu ▸ har)).trans hu
  split
  -- the reply was queued, so that the exchange may complete
  · refine meets_modify (fun u hu => Steps.single ?_) fun _ _ => trivial
    refine .rkReplied _ rk.track slot (hu ▸ har) hkx ?_ hk hf ?_
    · rw [hu, ha]
      exact Function.update_self ..
    · rw [hu, ha]
      exact List.getLast?_concat
  · exact meets_throw _

lemma meets_finishRekey :
    Meets (fun _ => True) (Steps S addr n .rekey) (finishRekey : M Conn Unit)
      fun _ _ => True := by
  rw [finishRekey_eq]
  refine meets_get_bind fun w _ => ?_
  rcases hrk : w.sess.rekey with _ | rk
  · exact meets_pure fun _ _ => trivial
  dsimp only
  split
  · rename_i hsent
    refine meets_put ?_ trivial
    rintro _ rfl
    exact Steps.single (.rkFinished _ rk.track (by simp [World.abs, hrk]) hsent)
  · exact meets_pure fun _ _ => trivial

lemma handleRekeyControl_moves {rk : RekeyTrack Conn} (hrk : w.sess.rekey = some rk)
    (ctrl : ControlPacket) :
    ReflTransGen (Move S addr n .rekey) (w.abs.tell (.feed (.rekey rk.keyId) ctrl))
      (handleRekeyControl S ctrl w).2.abs := by
  have ht : w.abs.rekey = some rk.track := by simp [World.abs, hrk]
  obtain ⟨a, ha⟩ : ∃ a, a = w.abs.tell (.feed (.rekey rk.keyId) ctrl) := ⟨_, rfl⟩
  have har : a.rekey = some rk.track := by rw [ha]; exact ht
  have htail : Meets (fun _ => True) (Steps S addr n .rekey)
      (do driveRekeyControlPlane S; flushRekeyOutgoing S; finishRekey) fun _ _ => True :=
    meets_bind meets_driveRekeyControlPlane fun _ =>
      meets_bind (meets_self fun u _ => (meets_flushRekeyOutgoing (c := u.abs.core)).conseq
        (fun _ h => congrArg (Abs.core ∘ World.abs) h) fun _ _ _ => trivial)
        fun _ => meets_finishRekey
  unfold handleRekeyControl
  rw [get_bind, hrk, ← ha]
  dsimp only
  rw [put_bind]
  have hfed := abs_rekey_log ht (.feed (.rekey rk.keyId) ctrl)
  refine steps_of_meets (Q := fun _ _ => True) (P := fun u => u.abs = a) ?_
    (hfed.trans ha.symm) (hfed.trans ha.symm)
  refine meets_bind (M := fun _ u => u.abs = a) (meets_context fun _ _ hu => hu) fun _ => ?_
  split
  · rename_i hst
    refine meets_bind (M := fun _ _ => True)
      (meets_modify (fun u hu => Steps.single ?_) fun _ _ => trivial) fun _ => htail
    exact .rkHandshaken _ rk.track (hu ▸ har) hst.1
  · exact htail.conseq (fun _ _ => trivial) fun _ _ _ => trivial

/-! ### The main track -/

lemma any_drop_append {log : List Effect} (h : n ≤ log.length) (p : Effect → Bool) (e : Effect) :
    ((log ++ [e]).drop n).any p = ((log.drop n).any p || p e) := by
  rw [List.drop_append_of_le_length h]
  simp

/-- The session has reached `st`, and `v4` and `v6` say which addresses it was given since. -/
structure At (n : ℕ) (st : State) (v4 v6 : Bool) (w : World Conn) : Prop where
  len : n ≤ w.log.length
  state : w.sess.state = st
  v4 : assignedSince n w.log = v4
  v6 : assignedV6Since n w.log = v6

section At

variable {st : State} {v4 v6 : Bool} {e : Effect}

lemma At.log (h : At n st v4 v6 w) (hs : w'.sess.state = w.sess.state)
    (hl : w'.log = w.log ++ [e]) :
    At n st (v4 || e.isAssigned) (v6 || e.isAssignedV6) w' where
  len := by rw [hl]; exact h.len.trans (by simp)
  state := hs.trans h.state
  v4 := by rw [hl]; exact (any_drop_append h.len _ _).trans (congrArg (· || _) h.v4)
  v6 := by rw [hl]; exact (any_drop_append h.len _ _).trans (congrArg (· || _) h.v6)

lemma At.of_eq (h : At n st v4 v6 w) {st' : State} (hs : w'.sess.state = st')
    (hl : w'.log = w.log) : At n st' v4 v6 w' :=
  ⟨hl ▸ h.len, hs, hl ▸ h.v4, hl ▸ h.v6⟩

end At

lemma chooseIp_cases (cc : Option ClientConfig) (w : World Conn) :
    (∃ e, chooseIp S cc w = (.error e, w)) ∨
    (∃ ip, w.tab.routes ip = none ∧ chooseIp S cc w = (.ok ip, w)) ∨
    (w.tab.nextPoolIp ≤ S.poolEnd ∧ chooseIp S cc w = (.ok w.tab.nextPoolIp,
      { w with tab := { w.tab with nextPoolIp := w.tab.nextPoolIp + 1 } })) := by
  unfold chooseIp
  rw [get_bind]
  -- the configured address, the pool, or a configured IPv6 address, which is refused
  rcases cc.bind ClientConfig.assignIp with _ | (v4 | v6) <;> dsimp only
  · unfold allocateIp
    rw [get_bind]
    dsimp only
    split
    · exact .inl ⟨_, rfl⟩
    · rename_i hle
      exact .inr (.inr ⟨UInt32.not_lt.mp hle, rfl⟩)
  · by_cases hr : (w.tab.routes v4).isSome
    · rw [if_pos hr]
      exact .inl ⟨_, rfl⟩
    · rw [if_neg hr]
      exact .inr (.inl ⟨v4, by simpa using hr, rfl⟩)
  · exact .inl ⟨_, rfl⟩

lemma meets_assignIp (cc : Option ClientConfig) :
    Meets (At n .pushPending false false) (Steps S addr n .main) (assignIp S addr cc)
      fun _ => At n .pushPending true false := by
  intro w hw
  unfold assignIp
  rcases chooseIp_cases (S := S) cc w with ⟨e, h⟩ | ⟨ip, hr, h⟩ | ⟨hle, h⟩
  · rw [bind_error h]
    exact ⟨.refl, by rintro _ ⟨⟩⟩
  · rw [bind_ok h]
    exact ⟨.single (Steps.single (.assignStatic _ ip hw.state hr hw.v4)),
      fun _ _ => hw.log (e := .assigned _) rfl rfl⟩
  · rw [bind_ok h]
    exact ⟨.single (Steps.single (.assignPool _ hw.state hle hw.v4)),
      fun _ _ => hw.log (e := .assigned _) rfl rfl⟩

lemma allocateIpV6_cases (w : World Conn) :
    (∃ e, allocateIpV6 S w = (.error e, w)) ∨ allocateIpV6 S w = (.ok none, w) ∨
    ∃ ip e, w.tab.nextPoolIpV6 = some ip ∧ S.poolEndV6 = some e ∧ ip ≤ e ∧
      allocateIpV6 S w = (.ok (some ip),
        { w with tab := { w.tab with nextPoolIpV6 := some (ip + 1) } }) := by
  unfold allocateIpV6
  rw [get_bind]
  rcases w.tab.nextPoolIpV6 with _ | ip <;> dsimp only
  · exact .inr (.inl rfl)
  rcases S.poolEndV6 with _ | e <;> dsimp only
  · exact .inl ⟨_, rfl⟩
  split
  · exact .inl ⟨_, rfl⟩
  · rename_i hle
    exact .inr (.inr ⟨ip, e, rfl, rfl, BitVec.not_lt.mp hle, rfl⟩)

lemma meets_assignIpV6 :
    Meets (At n .pushPending true false) (Steps S addr n .main) (assignIpV6 S addr)
      fun _ w => ∃ v6, At n .pushPending true v6 w := by
  intro w hw
  unfold assignIpV6
  rcases allocateIpV6_cases (S := S) w with ⟨e, h⟩ | h | ⟨ip, e, hc, he, hle, h⟩
  · rw [bind_error h]
    exact ⟨.refl, by rintro _ ⟨⟩⟩
  · rw [bind_ok h]
    exact ⟨.refl, fun _ _ => ⟨_, hw⟩⟩
  · rw [bind_ok h]
    exact ⟨.single (Steps.single (.assignV6 _ ip e hw.state hc he hle hw.v4 hw.v6)),
      fun _ _ => ⟨_, hw.log (e := .assignedV6 ip) rfl rfl⟩⟩

lemma meets_sendPlaintext_at {st : State} {v4 v6 : Bool} (data : Bytes) :
    Meets (At n st v4 v6) (Steps S addr n l) (sendPlaintext S data) fun _ => At n st v4 v6 :=
  meets_self fun w hw => (meets_sendPlaintext (c := w.abs) data).conseq
    (fun _ h => congrArg World.abs h)
    fun _ _ h => hw.of_eq ((congrArg Abs.state h).trans hw.state) (congrArg Abs.log h)

lemma meets_handlePushRequest :
    Meets (At n .pushPending false false) (Steps S addr n .main) (handlePushRequest S addr)
      fun _ w => ∃ v4 v6, At n .established v4 v6 w := by
  unfold handlePushRequest
  refine meets_get_bind fun w hw => ?_
  refine meets_bind ((meets_assignIp _).conseq (fun _ h => h ▸ hw) fun _ _ h => h) fun ip => ?_
  refine meets_bind meets_assignIpV6 fun ip6 => ?_
  refine meets_bind (M := fun _ w => ∃ v6, At n .pushPending true v6 w) ?_ fun _ => ?_
  · exact meets_self fun u ⟨v6, hu⟩ => (meets_sendPlaintext_at _).conseq
      (fun _ h => h ▸ hu) fun _ _ h => ⟨v6, h⟩
  · exact meets_modifySess (fun u ⟨_, hu⟩ => Steps.single (.established _ hu.state hu.v4))
      fun u ⟨v6, hu⟩ => ⟨true, v6, hu.of_eq rfl rfl⟩

lemma prfSlot_ok {s : Session Conn} {p : Primitives} {keyId : UInt8} {slot : KeySlot}
    (h : s.prfSlot p keyId = .ok slot) :
    slot.keyId = keyId ∧ slot.IsFresh ∧ p.Derives slot.cipher := by
  unfold Session.prfSlot at h
  repeat' split at h
  all_goals cases h
  exact ⟨rfl, KeySlot.isFresh_fresh _ _, _, _, _, _, _, _, _, rfl⟩

lemma isSome_activeSlot_place (t : SlotTable) (s : KeySlot) : (t.place s).activeSlot.isSome := by
  unfold SlotTable.place
  rcases h : t.activeSlot with _ | a
  · simp [SlotTable.activeSlot]
  · have hne : t.activeSlotIdx ≠ 1 - t.activeSlotIdx := by
      generalize t.activeSlotIdx = i
      revert i
      decide
    simp only [SlotTable.activeSlot, SlotTable.installSlot, SlotTable.setSlot] at h ⊢
    rw [Function.update_of_ne hne, h]
    rfl

lemma meets_installPrfSlot :
    Meets (fun w => At n .keyExchange false false w ∧ installs (w.log.drop n) = [])
      (Steps S addr n .main) (installPrfSlot S 0)
      fun _ w => At n .keyExchange false false w ∧ w.sess.activeSlot.isSome := by
  unfold installPrfSlot
  refine meets_get_bind fun w hw => ?_
  refine meets_bind (M := fun slot u => u = w ∧ slot.keyId = 0 ∧ slot.IsFresh ∧
    S.prims.Derives slot.cipher)
    (meets_ofExcept fun slot u hs hu => ⟨hu, prfSlot_ok hs⟩) fun slot => ?_
  refine meets_self fun u ⟨hu, hk, hf, hd⟩ => meets_put ?_ ⟨hw.1.log (e := .installed slot) rfl rfl,
    isSome_activeSlot_place _ _⟩
  rintro _ rfl
  subst hu
  exact Steps.single (.installed _ slot hw.1.state hk hf hw.2 hd)

lemma meets_handleKeyMethod2 (km : ClientKeyMethod2) :
    Meets (fun w => At n .keyExchange false false w ∧ installs (w.log.drop n) = [])
      (Steps S addr n .main) (handleKeyMethod2 S km)
      fun _ => At n .pushPending false false := by
  unfold handleKeyMethod2
  refine meets_bind (M := fun _ w => At n .keyExchange false false w ∧
    installs (w.log.drop n) = []) (meets_modifySess (fun _ _ => .of_eq rfl)
    fun u hu => ⟨hu.1.of_eq hu.1.state rfl, hu.2⟩) fun _ => ?_
  refine meets_bind meets_installPrfSlot fun _ => ?_
  refine meets_get_bind fun w hw => ?_
  refine meets_bind ((meets_sendPlaintext (c := w.abs) _).conseq (fun _ h => congrArg World.abs h)
    fun _ _ h => h) fun _ => ?_
  refine meets_modifySess (fun u hu => Steps.single (.keyed _ ?_ ?_)) fun u hu => ?_
  · rw [hu]; exact hw.1.state
  · rw [hu]; exact hw.2
  · exact hw.1.of_eq rfl (congrArg Abs.log hu)

/-- Between two rounds of the loop: no address has been handed out in it, unless the
session is established, and no slot installed while the keys are exchanged. -/
def Round (n : ℕ) (w : World Conn) : Prop :=
  (∃ st v4 v6, At n st v4 v6 w ∧
    (v4 = false ∧ v6 = false ∨ st = .established ∨ st = .closed)) ∧
  (w.sess.state = .keyExchange → installs (w.log.drop n) = [])

lemma Round.unassigned (h : Round n w) (h1 : w.sess.state ≠ .established)
    (h2 : w.sess.state ≠ .closed) : At n w.sess.state false false w := by
  obtain ⟨⟨st, v4, v6, hat, ⟨rfl, rfl⟩ | rfl | rfl⟩, -⟩ := h
  · exact hat.of_eq rfl rfl
  · exact absurd hat.state h1
  · exact absurd hat.state h2

lemma At.round {st : State} {v4 v6 : Bool} (h : At n st v4 v6 w) (hne : st ≠ .keyExchange)
    (hst : v4 = false ∧ v6 = false ∨ st = .established ∨ st = .closed) : Round n w :=
  ⟨⟨st, v4, v6, h, hst⟩, fun he => absurd (h.state.symm.trans he) hne⟩

lemma meets_driveRound :
    Meets (Round n) (Steps S addr n .main) (driveRound S addr) fun _ => Round n := by
  unfold driveRound
  refine meets_get_bind fun w hw => ?_
  rcases hst : w.sess.state <;> dsimp only
  case keyExchange =>
    have hat : At n .keyExchange false false w :=
      hst ▸ hw.unassigned (by simp [hst]) (by simp [hst])
    refine meets_bind (M := fun _ u => u = w) (meets_ofExcept fun _ _ _ h => h) fun pop => ?_
    rcases pop with ⟨km, k⟩ | _
    · refine meets_bind (meets_drainPlaintext k) fun _ => ?_
      refine meets_bind ((meets_handleKeyMethod2 km).conseq
        (fun _ ⟨tls, h⟩ => ⟨hat.of_eq (h ▸ hst) (h ▸ rfl), h ▸ hw.2 hst⟩) fun _ _ h => h)
        fun _ => ?_
      exact meets_pure fun _ h => h.round (by simp) (.inl ⟨rfl, rfl⟩)
    · exact meets_pure fun _ h => h ▸ hw
  case pushPending =>
    have hat : At n .pushPending false false w :=
      hst ▸ hw.unassigned (by simp [hst]) (by simp [hst])
    rcases tryPopAscii w.sess.tls.plaintextIn with ⟨msg, k⟩ | _
    · refine meets_bind (M := fun _ => At n .pushPending false false)
        ((meets_drainPlaintext k).conseq (fun _ h => h) ?_) fun _ => ?_
      · rintro _ _ ⟨tls, rfl⟩
        exact hat.of_eq hst rfl
      · split
        · exact meets_bind meets_handlePushRequest fun _ => meets_pure
            fun _ ⟨v4, v6, h⟩ => h.round (by simp) (.inr (.inl rfl))
        · exact meets_pure fun _ h => h.round (by simp) (.inl ⟨rfl, rfl⟩)
    · exact meets_pure fun _ h => h ▸ hw
  case established =>
    obtain ⟨⟨st, v4, v6, h, -⟩, -⟩ := id hw
    rcases tryPopAscii w.sess.tls.plaintextIn with ⟨msg, k⟩ | _
    · refine meets_bind (M := fun _ => At n .established v4 v6)
        ((meets_drainPlaintext k).conseq (fun _ h => h) ?_) fun _ => ?_
      · rintro _ _ ⟨tls, rfl⟩
        exact h.of_eq hst rfl
      · split
        · refine meets_bind (M := fun _ => At n .closed v4 v6) (meets_modifySess
            (fun u hu => Steps.single (.closed _ hu.state)) fun u hu => hu.of_eq rfl rfl)
            fun _ => ?_
          exact meets_pure fun _ hu => hu.round (by simp) (.inr (.inr rfl))
        · exact meets_pure fun _ hu => hu.round (by simp) (.inr (.inl rfl))
    · exact meets_pure fun _ h => h ▸ hw
  all_goals exact meets_pure fun _ h => h ▸ hw

lemma meets_driveLoop (fuel : ℕ) :
    Meets (Round n) (Steps S addr n .main) (driveLoop S addr fuel) fun _ => Round n := by
  induction fuel with
  | zero => exact meets_pure fun _ h => h
  | succ fuel ih =>
    refine meets_bind meets_driveRound fun go => ?_
    split
    · exact ih
    · exact meets_pure fun _ h => h

lemma meets_driveControlPlane :
    Meets (Round n) (Steps S addr n .main) (driveControlPlane S addr) fun _ => Round n := by
  unfold driveControlPlane
  exact meets_get_bind fun w hw => (meets_driveLoop _).conseq (fun _ h => h ▸ hw) fun _ _ h => h

lemma handleMainControl_moves (h : At n w.sess.state false false w)
    (hi : installs (w.log.drop n) = []) (ctrl : ControlPacket) :
    ReflTransGen (Move S addr n .main) (w.abs.tell (.feed .main ctrl))
      (handleMainControl S addr ctrl w).2.abs := by
  have htail : Meets (Round n) (Steps S addr n .main)
      (do driveControlPlane S addr; flushOutgoing S) fun _ _ => True :=
    meets_bind meets_driveControlPlane fun _ => meets_self fun u _ =>
      (meets_flushOutgoing (c := u.abs.core) (.inl rfl)).conseq
        (fun _ h => congrArg (Abs.core ∘ World.abs) h) fun _ _ _ => trivial
  unfold handleMainControl
  rw [get_bind]
  dsimp only
  rw [put_bind]
  have hat : At n w.sess.state false false { w with
      sess := { w.sess with tls := (w.sess.tls.feed S.rustls ctrl.payload).1 },
      log := w.log ++ [.feed .main ctrl] } := h.log (e := .feed .main ctrl) rfl rfl
  have hfed : installs ((w.log ++ [Effect.feed .main ctrl]).drop n) = [] := by
    rw [List.drop_append_of_le_length h.len, installs_append, hi]
    rfl
  refine steps_of_meets (Q := fun _ _ => True)
    (P := fun u => At n w.sess.state false false u ∧ installs (u.log.drop n) = []) ?_
    ⟨hat, hfed⟩ rfl
  refine meets_bind (M := fun _ u => At n w.sess.state false false u ∧
    installs (u.log.drop n) = []) (meets_context fun _ _ hu => hu) fun _ => ?_
  split
  · rename_i hst
    refine meets_bind (M := fun _ => Round n) (meets_modify (fun u hu => ?_) fun u hu => ?_)
      fun _ => htail
    · refine Steps.move (.handshaken _ (hu.1.state.trans hst.1)) ?_
      unfold Session.finalizeKeys
      split <;> rfl
    · have hkx : (u.sess.finalizeKeys S.rustls).state = .keyExchange := by
        unfold Session.finalizeKeys
        split <;> rfl
      have hu' : At n .keyExchange false false { u with sess := u.sess.finalizeKeys S.rustls } :=
        hu.1.of_eq hkx rfl
      refine ⟨⟨_, _, _, hu'.log (e := .handshaken .main) rfl rfl, .inl ⟨rfl, rfl⟩⟩, fun _ => ?_⟩
      dsimp only
      rw [List.drop_append_of_le_length hu.1.len, installs_append, hu.2]
      rfl
  · exact htail.conseq (fun u hu => ⟨⟨_, _, _, hu.1, .inl ⟨rfl, rfl⟩⟩, fun _ => hu.2⟩)
      fun _ _ _ => trivial

end Javs
