import Javs.DataRoundTrip
import Javs.Lifecycle
import Javs.Nonce
import Javs.Transcript

/-!
The way of a packet from the TUN to the client.

`forward_tun_to_client` and the keepalive task seal under the active slot, whose packet ids count
up from 1. So as long as the ids of a slot do not run out, the client, which has the mirrored
cipher and a replay window of its own, reads what was sealed for it: in the order of the packet
ids all that reaches it, in any order nothing twice. The keepalive task sends after it has released
the session, so that packets may leave in another order than that of their ids.
-/

namespace Javs

open Lib Lib.Proc Relation M Bytes

variable {Conn : Type}

/-- A data packet on its way to the client: the slot as it was found, the plaintext, and the
datagram. -/
structure Dispatch where
  slot : KeySlot
  plaintext : Bytes
  wire : Bytes

/-- What sending `plaintext` through the data channel puts on the wire. Nothing, if there is no
slot, AES-GCM refuses the text or the send fails. -/
def World.dispatch (S : VpnServer Conn) (w : World Conn) (plaintext : Bytes) : Option Dispatch := do
  let slot ← w.sess.activeSlot
  let header := Session.dataHeader w.sess.peerId slot.keyId slot.dataPidOut
  let ct ← (slot.cipher.seal' S.prims slot.dataPidOut header plaintext).toOption
  if w.env.sends.head? = some false then none else some ⟨slot, plaintext, header ++ ct⟩

/-- The data packets an event sends. -/
def World.dispatches (S : VpnServer Conn) (w : World Conn) : Event Conn → List Dispatch
  | .tun env ipPkt => (World.dispatch S { w with env } ipPkt).toList
  | .ping env =>
    if w.sess.state = .established then (World.dispatch S { w with env } pingPayload).toList else []
  | _ => []

def dispatched (S : VpnServer Conn) (addr : SocketAddr) (w : World Conn)
    (es : List (Event Conn)) : List Dispatch :=
  (trace (step S addr) w es).flatMap fun x => x.1.dispatches S x.2

def Effect.dataWire? : Effect → Option Bytes
  | .wire b => if isDataWire b then some b else none
  | _ => none

def dataWires (log : List Effect) : List Bytes := log.filterMap Effect.dataWire?

/-! ### One packet -/

section Dispatch

variable {S : VpnServer Conn} {w : World Conn} {plaintext : Bytes} {d : Dispatch}

lemma dispatch_eq_some (h : w.dispatch S plaintext = some d) :
    w.sess.activeSlot = some d.slot ∧ d.plaintext = plaintext ∧
      ∃ ct, d.slot.cipher.seal' S.prims d.slot.dataPidOut
          (Session.dataHeader w.sess.peerId d.slot.keyId d.slot.dataPidOut) plaintext = .ok ct ∧
        d.wire = Session.dataHeader w.sess.peerId d.slot.keyId d.slot.dataPidOut ++ ct := by
  simp only [World.dispatch, Option.bind_eq_bind, Option.bind_eq_some_iff] at h
  obtain ⟨slot, hslot, ct, hct, hd⟩ := h
  split at hd
  · cases hd
  · obtain rfl := Option.some.inj hd
    refine ⟨hslot, rfl, ct, ?_, rfl⟩
    rcases hs : slot.cipher.seal' S.prims slot.dataPidOut
      (Session.dataHeader w.sess.peerId slot.keyId slot.dataPidOut) plaintext with e | ct' <;>
      rw [hs] at hct
    · cases hct
    · exact congrArg Except.ok (Option.some.inj hct)

lemma isDataWire_dispatch (h : w.dispatch S plaintext = some d) : isDataWire d.wire = true := by
  obtain ⟨-, -, ct, -, hwire⟩ := dispatch_eq_some h
  rw [hwire]
  exact isDataWire_dataHeader _ _ _ _

lemma sendData_log (S : VpnServer Conn) (plaintext : Bytes) (w : World Conn) :
    ((do transportSend (← buildDataPacket S plaintext) : M Conn Unit) w).2.log = w.log ++
      (w.sess.activeSlot.map fun slot => .sealed slot.cipher slot.dataPidOut).toList ++
      (w.dispatch S plaintext).toList.map fun d => .wire d.wire := by
  unfold buildDataPacket World.dispatch
  rw [bind_bind, get_bind]
  rcases hslot : w.sess.activeSlot with _ | slot
  · show w.log = _
    simp
  dsimp only
  rw [bind_bind, put_bind, bind_bind]
  rcases hseal : slot.cipher.seal' S.prims slot.dataPidOut
    (Session.dataHeader w.sess.peerId slot.keyId slot.dataPidOut) plaintext with e | ct
  · show w.log ++ [.sealed slot.cipher slot.dataPidOut] = _
    simp [hseal, Except.toOption]
  · rw [bind_ok (ofExcept_apply _ _), Proc.pure_bind]
    rcases transportSend_apply (Session.dataHeader w.sess.peerId slot.keyId slot.dataPidOut ++ ct) _
      with ⟨hsend, e, h⟩ | ⟨hsend, h⟩ <;> rw [h] <;> dsimp only at hsend
    · simp [Except.toOption, hsend]
    · simp [hseal, Except.toOption, hsend]

end Dispatch

/-! ### One event -/

section Event

variable {S : VpnServer Conn} {w : World Conn} {e : Event Conn}

def World.sealing (w : World Conn) : Event Conn → Option (DataCipher × UInt32)
  | .tun .. => w.sess.activeSlot.map fun slot => (slot.cipher, slot.dataPidOut)
  | .ping _ =>
    if w.sess.state = .established then
      w.sess.activeSlot.map fun slot => (slot.cipher, slot.dataPidOut)
    else none
  | _ => none

def Event.isOutbound : Event Conn → Bool
  | .tun .. | .ping _ => true
  | _ => false

lemma dispatches_of_not_outbound (h : e.isOutbound = false) : w.dispatches S e = [] := by
  cases e <;> first | rfl | cases h

lemma dispatches_cases (S : VpnServer Conn) (w : World Conn) (e : Event Conn) :
    w.dispatches S e = [] ∨ ∃ env text d, World.dispatch S { w with env } text = some d ∧
      w.dispatches S e = [d] ∧ w.sealing e = some (d.slot.cipher, d.slot.dataPidOut) := by
  cases e with
  | tun env ipPkt =>
    rcases hd : World.dispatch S { w with env } ipPkt with _ | d
    · exact .inl (by simp [World.dispatches, hd])
    · have hslot : w.sess.activeSlot = some d.slot := (dispatch_eq_some hd).1
      exact .inr ⟨env, ipPkt, d, hd, by simp [World.dispatches, hd], by simp [World.sealing, hslot]⟩
  | ping env =>
    by_cases hst : w.sess.state = .established
    · rcases hd : World.dispatch S { w with env } pingPayload with _ | d
      · exact .inl (by simp [World.dispatches, hd])
      · have hslot : w.sess.activeSlot = some d.slot := (dispatch_eq_some hd).1
        exact .inr ⟨env, pingPayload, d, hd, by simp [World.dispatches, hst, hd],
          by simp [World.sealing, hst, hslot]⟩
    · exact .inl (by simp [World.dispatches, hst])
  | _ => exact .inl rfl

lemma outbound_log (addr : SocketAddr) (h : e.isOutbound = true) :
    (step S addr w e).log = w.log ++ ((w.sealing e).map fun x => .sealed x.1 x.2).toList ++
      (w.dispatches S e).map fun d => .wire d.wire := by
  have hnone (env : Env Conn) (plaintext : Bytes) (hs : w.sess.activeSlot = none) :
      World.dispatch S { w with env } plaintext = none := by
    simp [World.dispatch, hs]
  cases e with
  | tun env ipPkt =>
    have hlog := sendData_log S ipPkt { w with env }
    rw [step, forwardLocked, get_bind]
    rcases hs : w.sess.activeSlot with _ | slot
    · simp [World.sealing, World.dispatches, hs, hnone env ipPkt hs]
    · simp only [Option.isNone_some, Bool.false_eq_true, if_false]
      rw [hlog]
      simp [World.sealing, World.dispatches, hs]
  | ping env =>
    have hlog := sendData_log S pingPayload { w with env }
    rw [step, pingTick, get_bind]
    rcases hs : w.sess.activeSlot with _ | slot
    · simp [World.sealing, World.dispatches, hs, hnone env pingPayload hs]
    -- a ping is sealed for established sessions only, a packet of the TUN for any with a slot
    · by_cases hst : w.sess.state = .established
      · simp only [hst, ne_eq, not_true, Option.isNone_some, Bool.false_eq_true, or_self, if_false]
        rw [hlog]
        simp [World.sealing, World.dispatches, hs, hst]
      · simp [World.sealing, World.dispatches, hst]
  | _ => cases h

end Event

lemma dispatched_snoc (S : VpnServer Conn) (addr : SocketAddr) (w : World Conn)
    (es : List (Event Conn)) (e : Event Conn) :
    dispatched S addr w (es ++ [e]) =
      dispatched S addr w es ++ (run (step S addr) w es).dispatches S e := by
  simp [dispatched, trace_append]

/-! ### The datagrams of the data channel -/

section Wires

variable {S : VpnServer Conn} {w : World Conn} {e : Event Conn} {us vs : List Utterance}
  {a b : Outward} {heard : Option UInt32}

lemma dataWires_append (log log' : List Effect) :
    dataWires (log ++ log') = dataWires log ++ dataWires log' :=
  List.filterMap_append

lemma dataWires_speech (log : List Effect) : dataWires (speech log) = dataWires log :=
  filterMap_speech (fun e he => by cases e <;> first | rfl | cases he) log

lemma dataWires_control {sent : Option Bytes} (h : ∀ x ∈ sent, isDataWire x = false) :
    dataWires (sent.map Effect.wire).toList = [] := by
  rcases sent with _ | x
  · rfl
  · simp [dataWires, Effect.dataWire?, h x rfl]

lemma Drafts.dataWires {pkt : ControlPacket} (h : Drafts heard a pkt b) :
    Javs.dataWires b.said = Javs.dataWires a.said := by
  cases h <;> exact (dataWires_append _ _).trans (List.append_nil _)

lemma Speaks.dataWires (h : Speaks S heard a us b) :
    Javs.dataWires b.said = Javs.dataWires a.said := by
  induction h with
  | silent => rfl
  | @speak us c d pkt _ hd sent hsent ih =>
    have hctl : ∀ x ∈ sent, isDataWire x = false := fun x hx =>
      (isDataWire_envelope (hsent x hx)).trans hd.said.2.2.2
    have hsaid : (d.utter S pkt sent).said = d.said ++ (sent.map Effect.wire).toList := by
      rcases sent with _ | x
      · exact (List.append_nil _).symm
      · rfl
    rw [hsaid, dataWires_append, dataWires_control hctl, List.append_nil, hd.dataWires, ih]
  | renewed _ keyId before after ih =>
    exact (dataWires_append _ _).trans ((List.append_nil _).trans ih)

lemma Resends.dataWires (h : Resends S a us b)
    (hctl : ∀ u ∈ us, ∃ pkt : ControlPacket, pkt.op.isData = false ∧ u.inner = pkt.encode) :
    Javs.dataWires b.said = Javs.dataWires a.said := by
  induction h with
  | nil => rfl
  | @cons a b us inner sent hsent _ ih =>
    obtain ⟨pkt, hop, rfl⟩ : ∃ pkt : ControlPacket, pkt.op.isData = false ∧ inner = pkt.encode :=
      hctl _ List.mem_cons_self
    have hctl' : ∀ x ∈ sent, isDataWire x = false := fun x hx =>
      (isDataWire_envelope (hsent x hx)).trans hop
    rw [ih fun u hu => hctl u (List.mem_cons_of_mem _ hu), Outward.resent, dataWires_append,
      dataWires_control hctl', List.append_nil]

lemma said_noted (a : Outward) (ctrl : ControlPacket) : (a.noted ctrl).said = a.said := by
  unfold Outward.noted
  split <;> dsimp only
  split <;> rfl

lemma dataWires_step (h : Transcript S us w.outward) (addr : SocketAddr) (e : Event Conn) :
    dataWires (step S addr w e).log = dataWires w.log ++ (w.dispatches S e).map Dispatch.wire := by
  rcases hout : e.isOutbound with _ | _
  · rw [dispatches_of_not_outbound hout, List.map_nil, List.append_nil,
      ← dataWires_speech (step S addr w e).log, ← dataWires_speech w.log]
    obtain ⟨vs, hvs⟩ := step_shows S addr w e
    change dataWires (step S addr w e).outward.said = dataWires w.outward.said
    generalize (step S addr w e).outward = b at hvs
    cases hvs with
    | idle hc hr => cases e <;> rfl
    | refused | opened => rfl
    | heard he _ hs => rw [hs.dataWires, said_noted]; rfl
    | sealed he => rcases he with ⟨ipPkt, rfl⟩ | rfl <;> cases hout
    | requested _ _ _ _ hs => exact hs.dataWires
    | restarted _ hs => exact hs.dataWires
    | @resent env _ _ _ hus hr =>
      -- what is sent again was built as a control packet, and its first byte still says so
      refine hr.dataWires fun u hu => ?_
      obtain ⟨-, hstale⟩ := encoded_staleUnacked w.sess env.now controlBaseRto
      obtain ⟨q, hq, hinner⟩ := hstale u.inner (hus ▸ List.mem_map_of_mem hu)
      obtain ⟨pkt, hpkt, henc⟩ := h.queued q hq
      exact ⟨pkt, h.control pkt hpkt, hinner.trans henc⟩
  · have hsealed : dataWires ((w.sealing e).map fun x => .sealed x.1 x.2).toList = [] := by
      rcases w.sealing e <;> rfl
    rw [outbound_log addr hout, dataWires_append, dataWires_append, hsealed, List.append_nil]
    rcases dispatches_cases S w e with hd | ⟨env, text, d, hd, hone, -⟩
    · rw [hd]
      rfl
    · simp [hone, dataWires, Effect.dataWire?, isDataWire_dispatch hd]

lemma dataWires_run (S : VpnServer Conn) (addr : SocketAddr) (o : Opening Conn)
    (es : List (Event Conn)) :
    dataWires (run (step S addr) (started S o) es).log =
      (dispatched S addr (started S o) es).map Dispatch.wire := by
  induction es using List.reverseRecOn with
  | nil =>
    obtain ⟨us, hus⟩ := started_speaks S o
    rw [run_nil, ← dataWires_speech]
    exact hus.dataWires
  | append_singleton es e ih =>
    obtain ⟨us, hus, -⟩ := session_transcript S addr o es
    rw [run_append, run_cons, run_nil, dataWires_step hus, ih, dispatched_snoc, List.map_append]

end Wires

/-! ### The ids of the data channel -/

section Ids

variable {S : VpnServer Conn} {w : World Conn}

def Dispatch.sealing (d : Dispatch) : DataCipher × UInt32 := (d.slot.cipher, d.slot.dataPidOut)

lemma history_grows {p : Primitives} {v v' : KeyView} (h : ReflTransGen (Turn p) v v') :
    v.seals <+: v'.seals ∧ v.installs <+: v'.installs := by
  induction h with
  | refl => exact ⟨List.prefix_refl _, List.prefix_refl _⟩
  | tail _ ht ih =>
    cases ht with
    | install => exact ⟨ih.1, ih.2.trans (List.prefix_append _ _)⟩
    | sealing => exact ⟨ih.1.trans (List.prefix_append _ _), ih.2⟩
    | opening => exact ih

lemma seals_step (S : VpnServer Conn) (addr : SocketAddr) (w : World Conn) (e : Event Conn) :
    ∃ new, (step S addr w e).abs.keys.seals = w.abs.keys.seals ++ new ∧
      ((w.dispatches S e).map Dispatch.sealing).Sublist new := by
  rcases hout : e.isOutbound with _ | _
  · obtain ⟨new, hnew⟩ := (history_grows (step_reacts S addr w e).keys).1
    refine ⟨new, hnew.symm, ?_⟩
    rw [dispatches_of_not_outbound hout]
    exact List.nil_sublist _
  · refine ⟨(w.sealing e).toList, ?_, ?_⟩
    · have hlog : (step S addr w e).abs.keys.seals =
          (step S addr w e).log.filterMap Effect.sealed? := rfl
      rw [hlog, outbound_log addr hout, List.filterMap_append, List.filterMap_append]
      have hwires : ((w.dispatches S e).map fun d => Effect.wire d.wire).filterMap
          Effect.sealed? = [] := by
        simp [Effect.sealed?]
      rw [hwires, List.append_nil]
      congr 1
      rcases w.sealing e <;> rfl
    · rcases dispatches_cases S w e with hd | ⟨env, text, d, -, hone, hseal⟩
      · rw [hd]
        exact List.nil_sublist _
      · rw [hone, hseal]
        exact List.Sublist.refl _

lemma dispatched_sublist (S : VpnServer Conn) (addr : SocketAddr) (w : World Conn)
    (es : List (Event Conn)) :
    ((dispatched S addr w es).map Dispatch.sealing).Sublist
      (run (step S addr) w es).abs.keys.seals := by
  induction es using List.reverseRecOn with
  | nil => exact List.nil_sublist _
  | append_singleton es e ih =>
    obtain ⟨new, hnew, hsub⟩ := seals_step S addr (run (step S addr) w es) e
    rw [run_append, run_cons, run_nil, hnew, dispatched_snoc, List.map_append]
    exact ih.append hsub

/-- Every slot in the table goes back to one that was installed, with its key id. -/
def KeyView.Stemmed (v : KeyView) : Prop :=
  ∀ i s, v.slots i = some s → ∃ s₀ ∈ v.installs, s₀.cipher = s.cipher ∧ s₀.keyId = s.keyId

lemma stemmed_of_history {p : Primitives} {v : KeyView} (h : ReflTransGen (Turn p) .empty v) :
    v.Stemmed := by
  induction h with
  | refl => exact fun i s hs => by cases hs
  | tail _ ht ih =>
    cases ht with
    | install i slot hf =>
      intro j s hj
      rcases eq_some_of_update hj with ⟨-, rfl⟩ | ⟨-, hj⟩
      · exact ⟨s, by simp, rfl, rfl⟩
      · obtain ⟨s₀, hs₀, h⟩ := ih j s hj
        exact ⟨s₀, List.mem_append_left _ hs₀, h⟩
    | sealing i slot hs | opening i slot _ _ hs =>
      intro j s hj
      rcases eq_some_of_update hj with ⟨-, rfl⟩ | ⟨-, hj⟩
      · exact ih i slot hs
      · exact ih j s hj

lemma dispatched_installed (S : VpnServer Conn) (addr : SocketAddr) (o : Opening Conn)
    (es : List (Event Conn)) : ∀ d ∈ dispatched S addr (started S o) es,
      ∃ s₀ ∈ installs (run (step S addr) (started S o) es).log,
        s₀.cipher = d.slot.cipher ∧ s₀.keyId = d.slot.keyId := by
  induction es using List.reverseRecOn with
  | nil => simp [dispatched]
  | append_singleton es e ih =>
    have hkeys := keys_run S addr (run (step S addr) (started S o) es) [e]
    have hgrows : installs (run (step S addr) (started S o) es).log <+:
        installs (run (step S addr) (started S o) (es ++ [e])).log := by
      rw [run_append]
      exact (history_grows hkeys).2
    have hstem := stemmed_of_history ((keys_started S o).trans (keys_run S addr (started S o) es))
    intro d hd
    rw [dispatched_snoc] at hd
    obtain ⟨s₀, hs₀, h⟩ : ∃ s₀ ∈ installs (run (step S addr) (started S o) es).log,
        s₀.cipher = d.slot.cipher ∧ s₀.keyId = d.slot.keyId := by
      rcases List.mem_append.mp hd with hd | hd
      · exact ih d hd
      -- the slot it is sealed under is in the table, and so goes back to an install
      · rcases dispatches_cases S (run (step S addr) (started S o) es) e with
          hnone | ⟨env, text, d', hd', hone, -⟩
        · rw [hnone] at hd
          cases hd
        · rw [hone] at hd
          obtain rfl := List.mem_singleton.mp hd
          exact hstem _ d.slot (dispatch_eq_some hd').1
    exact ⟨s₀, hgrows.subset hs₀, h⟩

lemma dispatched_dispatch {addr : SocketAddr} {es : List (Event Conn)} {d : Dispatch}
    (h : d ∈ dispatched S addr w es) :
    ∃ (u : World Conn) (text : Bytes), u.dispatch S text = some d := by
  obtain ⟨x, -, hx⟩ := List.mem_flatMap.mp h
  rcases dispatches_cases S x.1 x.2 with hnone | ⟨env, text, d', hd', hone, -⟩
  · rw [hnone] at hx
    cases hx
  · rw [hone] at hx
    obtain rfl := List.mem_singleton.mp hx
    exact ⟨_, text, hd'⟩

lemma sealsUnder_increasing {v : KeyView} (hc : Counted v) {key : Bytes}
    (hlen : (sealsUnder key v.seals).length < 2 ^ 32) :
    (sealsUnder key v.seals).Pairwise (· < ·) ∧ ∀ pid ∈ sealsUnder key v.seals, 0 < pid := by
  have hpid (i : ℕ) (hi : i < (sealsUnder key v.seals).length) :
      (UInt32.ofNat (i + 1)).toNat = i + 1 := by
    rw [UInt32.toNat_ofNat']
    exact Nat.mod_eq_of_lt (by omega)
  constructor
  · rw [hc.pids key, List.pairwise_map]
    refine List.Pairwise.imp_of_mem ?_ List.pairwise_lt_range
    intro i j hi hj hij
    rw [List.mem_range] at hi hj
    rw [UInt32.lt_iff_toNat_lt, hpid i hi, hpid j hj]
    omega
  · intro pid hmem
    obtain ⟨i, hi, rfl⟩ := (mem_sealsUnder_iff hc).mp hmem
    rw [UInt32.lt_iff_toNat_lt, hpid i hi]
    exact Nat.succ_pos i

end Ids

/-! ### The client -/

/-- How the holder of a cipher reads a datagram of the data channel: the plaintext, and the packet
id. -/
def DataCipher.readData (p : Primitives) (c : DataCipher) (keyId : UInt8) (d : Bytes) :
    Option (Bytes × UInt32) :=
  match DataPacketV2.parse d with
  | .ok dp =>
    if dp.keyId = keyId then
      (c.open' p dp.packetId (d.take 8) dp.ciphertext).toOption.map (·, dp.packetId)
    else none
  | .error _ => none

def Dispatch.received (d : Dispatch) : Bytes × Bytes × UInt32 :=
  (d.wire, d.plaintext, d.slot.dataPidOut)

lemma readData_dispatch {S : VpnServer Conn} {w : World Conn} {text : Bytes} {d : Dispatch}
    (hp : S.prims.Decrypts) (h : w.dispatch S text = some d) (hc : d.slot.cipher.Sized)
    (hkey : d.slot.keyId < 8) :
    d.slot.cipher.mirror.readData S.prims d.slot.keyId d.wire = some d.received.2 := by
  obtain ⟨-, rfl, ct, hseal, hwire⟩ := dispatch_eq_some h
  have hlen := length_dataHeader w.sess.peerId d.slot.keyId d.slot.dataPidOut
  have hopen := DataCipher.open'_of_seal' hp hc _ _ _ hseal
  simp only [DataCipher.readData, hwire, parse_dataHeader hkey, if_true,
    List.take_left' hlen, hopen]
  rfl

/-! ### The keys of the slots -/

/-- Rekeys and slots are under key ids of three bits, and the keys of slots are derived. -/
structure WellKeyed (S : VpnServer Conn) (a : Abs) : Prop where
  track : ∀ t, a.rekey = some t → t.keyId < 8
  slots : ∀ slot ∈ installs a.log, slot.keyId < 8 ∧ S.prims.Derives slot.cipher

section WellKeyed

variable {S : VpnServer Conn} {addr : SocketAddr} {n : ℕ} {l : Lane} {a b : Abs}

lemma WellKeyed.tell (h : WellKeyed S a) {e : Effect} (he : installs [e] = [])
    (hr : ∀ t, b.rekey = some t → t.keyId < 8) (hl : b.log = a.log ++ [e]) : WellKeyed S b := by
  refine ⟨hr, ?_⟩
  rw [hl, installs_append, he, List.append_nil]
  exact h.slots

lemma WellKeyed.install (h : WellKeyed S a) {slot : KeySlot} (hk : slot.keyId < 8)
    (hd : S.prims.Derives slot.cipher) (hr : b.rekey = a.rekey)
    (hl : b.log = a.log ++ [.installed slot]) : WellKeyed S b := by
  refine ⟨hr ▸ h.track, fun s hs => ?_⟩
  rw [hl, installs_append] at hs
  rcases List.mem_append.mp hs with hs | hs
  · exact h.slots s hs
  · obtain rfl : s = slot := by simpa [installs] using hs
    exact ⟨hk, hd⟩

lemma WellKeyed.move (h : WellKeyed S a) (hm : Move S addr n l a b) : WellKeyed S b := by
  cases hm with
  | keyed | established | closed => exact ⟨h.track, h.slots⟩
  | installed _ slot _ hk _ _ hd => exact h.install (by rw [hk]; decide) hd rfl rfl
  | rkInstalled _ t slot ht _ hk _ hd => exact h.install (hk ▸ h.track t ht) hd rfl rfl
  | rkHandshaken _ t ht =>
    refine h.tell rfl (fun t' ht' => ?_) rfl
    cases ht'
    exact h.track t ht
  | rkReplied _ t _ ht =>
    refine h.tell rfl (fun t' ht' => ?_) rfl
    cases ht'
    exact h.track t ht
  | rkFinished => exact h.tell rfl nofun rfl
  | wire | sent | ack | drained | frag | handshaken | assignStatic | assignPool | assignV6
  | rkDrained | rkFrag => exact h.tell rfl h.track rfl

lemma WellKeyed.moves (h : WellKeyed S a) (hm : ReflTransGen (Move S addr n l) a b) :
    WellKeyed S b := by
  induction hm with
  | refl => exact h
  | tail _ hm ih => exact ih.move hm

lemma enduring_wellKeyed : Enduring S addr (· < 8) (WellKeyed S) where
  tell h he _ _ hr _ hl := by
    refine h.tell ?_ (hr ▸ h.track) hl
    simpa [installs] using installs_snoc_of_unmarked he []
  shared _ h := ⟨h.track, h.slots⟩
  use _ _ _ h _ _ _ := ⟨h.track, h.slots⟩
  begin h _ keyId pkt hk := by
    refine h.tell (e := .reset pkt) rfl (fun t ht => ?_) rfl
    cases ht
    exact hk
  side h _ hm := h.moves hm

lemma wellKeyed_started (S : VpnServer Conn) (o : Opening Conn) :
    WellKeyed S (started S o).abs := by
  obtain ⟨reply, -, hm⟩ := started_moves S ⟨.v4 0, 0⟩ o
  refine WellKeyed.moves ⟨?_, ?_⟩ hm
  · simp [Abs.build, Abs.opening]
  · simp [Abs.build, Abs.opening, installs]

lemma wellKeyed_run (S : VpnServer Conn) (addr : SocketAddr) (o : Opening Conn)
    {es : List (Event Conn)} (hin : ∀ e ∈ es, e.Parsed) :
    WellKeyed S (run (step S addr) (started S o) es).abs := by
  refine run_keeps (I := fun w : World Conn => WellKeyed S w.abs) (C := fun _ e => e.Parsed)
    (fun w e h hparsed => ?_) (wellKeyed_started S o) fun x hx => hin x.2 (mem_of_mem_trace _ hx)
  refine enduring_wellKeyed.react h ?_ ?_ (fun _ hfed hm => hfed.moves hm) (step_reacts S addr w e)
  · rintro env ctrl replayPid rfl
    obtain ⟨b, hb⟩ := hparsed
    exact (ControlPacket.parse_sound hb).1.keyId
  · exact and_seven_lt _

lemma sized_installs (hs : S.prims.Sized) (addr : SocketAddr) (o : Opening Conn)
    {es : List (Event Conn)} (hin : ∀ e ∈ es, e.Parsed) {slot : KeySlot}
    (hslot : slot ∈ installs (run (step S addr) (started S o) es).log) :
    slot.cipher.Sized ∧ slot.keyId < 8 := by
  obtain ⟨hk, hd⟩ := (wellKeyed_run S addr o hin).slots slot hslot
  exact ⟨DataCipher.sized_of_derives hs hd, hk⟩

lemma dispatched_ids (S : VpnServer Conn) (addr : SocketAddr) (w : World Conn)
    (es : List (Event Conn)) (c : DataCipher) :
    (((dispatched S addr w es).filter (·.slot.cipher = c)).map fun d => d.slot.dataPidOut).Sublist
      (sealsUnder c.encKey (run (step S addr) w es).abs.keys.seals) := by
  generalize hmine : (dispatched S addr w es).filter (·.slot.cipher = c) = mine
  have hall : (mine.map Dispatch.sealing).filter (·.1.encKey = c.encKey) =
      mine.map Dispatch.sealing := by
    refine List.filter_eq_self.mpr fun x hx => ?_
    obtain ⟨d, hmem, rfl⟩ := List.mem_map.mp hx
    rw [← hmine] at hmem
    have hcipher : d.slot.cipher = c := by simpa using (List.mem_filter.mp hmem).2
    simp [Dispatch.sealing, hcipher]
  have hsub : (mine.map Dispatch.sealing).Sublist (run (step S addr) w es).abs.keys.seals := by
    rw [← hmine]
    exact (List.filter_sublist.map _).trans (dispatched_sublist S addr w es)
  have hkeyed := hsub.filter (·.1.encKey = c.encKey)
  rw [hall] at hkeyed
  have hmap := hkeyed.map Prod.snd
  rwa [List.map_map] at hmap

lemma dispatched_readData (hp : S.prims.Decrypts) {o : Opening Conn} {es : List (Event Conn)}
    (hd : (run (step S addr) (started S o) es).abs.keys.Distinct DataCipher.encKey)
    {slot : KeySlot} (hslot : slot ∈ installs (run (step S addr) (started S o) es).log)
    (hsized : slot.cipher.Sized) (hkey : slot.keyId < 8) {d : Dispatch}
    (hsent : d ∈ dispatched S addr (started S o) es) (hcipher : d.slot.cipher = slot.cipher) :
    slot.cipher.mirror.readData S.prims slot.keyId d.wire = some d.received.2 := by
  obtain ⟨u, text, hdispatch⟩ := dispatched_dispatch hsent
  obtain ⟨s₀, hs₀, hc₀, hk₀⟩ := dispatched_installed S addr o es d hsent
  obtain rfl : s₀ = slot := List.inj_on_of_nodup_map hd hs₀ hslot (by rw [hc₀, hcipher])
  rw [hc₀, hk₀]
  exact readData_dispatch hp hdispatch (hcipher ▸ hsized) (hk₀ ▸ hkey)

end WellKeyed

/-- **The client can follow the data channel.** In every run whose slots hold distinct keys, the
data packets of the log are those dispatched, and for each slot, as long as its packet ids have
not run out, the client with the mirrored cipher reads what was sealed under it: all that reaches
it in the order of the packet ids, whatever is lost in between; and in whatever order and however
often the datagrams reach it, none twice. What it reads is each time the packet of the TUN, or the
ping, that was sealed. -/
theorem peer_follows_data (S : VpnServer Conn) (hp : S.prims.Decrypts) (hs : S.prims.Sized)
    (addr : SocketAddr) (o : Opening Conn) (es : List (Event Conn)) (hin : ∀ e ∈ es, e.Parsed)
    (hd : (run (step S addr) (started S o) es).abs.keys.Distinct DataCipher.encKey) :
    let w := run (step S addr) (started S o) es
    let sent := dispatched S addr (started S o) es
    dataWires w.log = sent.map Dispatch.wire ∧
    ∀ slot ∈ installs w.log,
      (sealsUnder slot.cipher.encKey w.abs.keys.seals).length < 2 ^ 32 →
      let mine := sent.filter (·.slot.cipher = slot.cipher)
      let hear := Listener.hear (slot.cipher.mirror.readData S.prims slot.keyId)
      (∀ xs : List Dispatch, xs.Sublist mine →
        (run hear {} (xs.map Dispatch.wire)).taken = xs.map Dispatch.received) ∧
      ∀ ds ⊆ mine.map Dispatch.wire, ((run hear {} ds).taken.map Prod.fst).Nodup ∧
        ∀ t ∈ (run hear {} ds).taken, ∃ d ∈ mine, t = d.received := by
  intro w sent
  refine ⟨dataWires_run S addr o es, fun slot hslot hlen => ?_⟩
  intro mine hear
  obtain ⟨hsized, hkey⟩ := sized_installs hs addr o hin hslot
  obtain ⟨-, hcounted⟩ :=
    counted_of_history ((keys_started S o).trans (keys_run S addr (started S o) es)) hd
  have hids := dispatched_ids S addr (started S o) es slot.cipher
  obtain ⟨hincreasing, hpositive⟩ := sealsUnder_increasing hcounted hlen
  have hread : ∀ t ∈ mine.map Dispatch.received,
      slot.cipher.mirror.readData S.prims slot.keyId t.1 = some t.2 := by
    intro t ht
    obtain ⟨d, hmem, rfl⟩ := List.mem_map.mp ht
    obtain ⟨hsent, hcipher⟩ := List.mem_filter.mp hmem
    exact dispatched_readData hp hd hslot hsized hkey hsent (by simpa using hcipher)
  obtain ⟨hinOrder, honce⟩ := Listener.follows hread
    (by simpa [List.pairwise_map, Dispatch.received] using hincreasing.sublist hids)
    (by
      intro t ht
      obtain ⟨d, hmem, rfl⟩ := List.mem_map.mp ht
      exact hpositive _ (hids.subset (List.mem_map_of_mem hmem)))
  have hwires (xs : List Dispatch) :
      (xs.map Dispatch.received).map Prod.fst = xs.map Dispatch.wire := by
    rw [List.map_map]
    rfl
  constructor
  · intro xs hxs
    rw [← hwires]
    exact hinOrder _ (hxs.map _)
  · intro ds hds
    rw [← hwires] at hds
    obtain ⟨hnodup, hmine⟩ := honce ds hds
    refine ⟨hnodup, fun t ht => ?_⟩
    obtain ⟨d, hmem, rfl⟩ := List.mem_map.mp (hmine t ht)
    exact ⟨d, hmem, rfl⟩

def taggingServer : VpnServer Plain := { plainServer with prims := tagPrims }

/-- A packet of the TUN, a ping, and a packet whose send fails: the client reads the first two. -/
theorem peer_follows_data_twoPackets :
    let es : List (Event Plain) := [establishing, .tun (plainEnv 1) [0x45], .ping (plainEnv 1),
      .tun { plainEnv 1 with sends := [false] } [0x46]]
    let w := run (step taggingServer plainAddr) (started taggingServer plainOpening) es
    let sent := dispatched taggingServer plainAddr (started taggingServer plainOpening) es
    sent.map Dispatch.plaintext = [[0x45], pingPayload] ∧
      dataWires w.log = sent.map Dispatch.wire ∧
      ∃ slot ∈ installs w.log,
        (run (Listener.hear (slot.cipher.mirror.readData tagPrims slot.keyId)) {}
          (sent.map Dispatch.wire)).taken = sent.map Dispatch.received := by
  intro es w sent
  have hfacts : sent.map Dispatch.plaintext = [[0x45], pingPayload] ∧
      w.abs.keys.Distinct DataCipher.encKey ∧ w.abs.keys.seals.length = 3 ∧
      ∃ slot ∈ installs w.log, ∀ d ∈ sent, d.slot.cipher = slot.cipher := by
    unfold KeyView.Distinct
    decide +kernel
  obtain ⟨htexts, hd, hthree, slot, hslot, hmine⟩ := hfacts
  have hin : ∀ e ∈ es, e.Parsed := by
    intro e he
    rcases List.mem_cons.mp he with rfl | he
    · exact parsed_establishing
    · simp only [List.mem_cons, List.not_mem_nil, or_false] at he
      rcases he with rfl | rfl | rfl <;> trivial
  obtain ⟨hwires, hfollows⟩ := peer_follows_data taggingServer decrypts_tagPrims sized_tagPrims
    plainAddr plainOpening es hin hd
  have hfew : (sealsUnder slot.cipher.encKey w.abs.keys.seals).length ≤ 3 := by
    rw [sealsUnder, List.length_map, ← hthree]
    exact List.length_filter_le _ _
  have hall : sent.filter (·.slot.cipher = slot.cipher) = sent :=
    List.filter_eq_self.mpr fun d hmem => by simpa using hmine d hmem
  refine ⟨htexts, hwires, slot, hslot, ?_⟩
  exact (hfollows slot hslot (Nat.lt_of_le_of_lt hfew (by decide))).1 sent
    (hall.symm ▸ List.Sublist.refl _)

end Javs
