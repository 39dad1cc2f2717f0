import Javs.Rekey

/-!
Which TLS context a control packet belongs to.

The initial context is that of key id 0, and a rekey negotiates a context of its own under
the key id it will install. Inbound packets are routed by the rekey in progress alone, and
what the main context has to say is labelled with the key id of the active slot, so packets
stay in their generation only while the main context is not used behind a rekey.
-/

namespace Javs

open Lib Relation

variable {Conn : Type}

def Ctx.keyId : Ctx → UInt8
  | .main => 0
  | .rekey keyId => keyId

/-- A packet that is fed into a context, or built around its bytes, has its key id. Bare
acknowledgements go out in the flush of the main context. -/
def Effect.InGeneration : Effect → Prop
  | .feed ctx pkt => pkt.keyId = ctx.keyId
  | .frag ctx pkt => pkt.keyId = ctx.keyId
  | .ack pkt => pkt.keyId = Ctx.main.keyId
  | _ => True

instance (e : Effect) : Decidable e.InGeneration := by
  unfold Effect.InGeneration
  split <;> infer_instance

/-- All packets so far, and in the lanes that use the main context those to come, stay in
their generation. -/
structure InGeneration (l : Lane) (a : Abs) : Prop where
  log : ∀ e ∈ a.log, e.InGeneration
  active : l = .main ∨ l = .flush → a.table.activeKeyId = 0

section Moves

variable {S : VpnServer Conn} {addr : SocketAddr} {n : ℕ} {l : Lane} {a b : Abs}

lemma InGeneration.snoc (h : InGeneration l a) {e : Effect} (he : e.InGeneration)
    (ht : l = .main ∨ l = .flush → b.table.activeKeyId = 0) (hl : b.log = a.log ++ [e]) :
    InGeneration l b := by
  refine ⟨fun x hx => ?_, ht⟩
  rw [hl, List.mem_append, List.mem_singleton] at hx
  rcases hx with hx | rfl
  · exact h.log x hx
  · exact he

lemma activeKeyId_place (t : SlotTable) {slot : KeySlot} (ht : t.activeKeyId = 0)
    (hk : slot.keyId = 0) : (t.place slot).activeKeyId = 0 := by
  rcases ha : t.activeSlot with _ | s
  · exact (SlotTable.activeKeyId_eq (SlotTable.activeSlot_place_of_none ha slot)).trans hk
  · unfold SlotTable.activeKeyId SlotTable.place at *
    simp only [ha, SlotTable.activeSlot_installSlot] at ht ⊢
    exact ht

lemma InGeneration.move (h : InGeneration l a) (hm : Move S addr n l a b) : InGeneration l b := by
  cases hm with
  | frag _ _ pkt hl hk hp =>
    exact h.snoc (e := .frag .main pkt) (hk.trans (h.active hl)) h.active rfl
  | ack _ _ pkt hl hk => exact h.snoc (e := .ack pkt) (hk.trans (h.active hl)) h.active rfl
  | rkFrag _ t pkt ht hk hp => exact h.snoc (e := .frag (.rekey t.keyId) pkt) hk h.active rfl
  | installed _ slot hs hk hf hn =>
    exact h.snoc (e := .installed slot) trivial (fun hl => activeKeyId_place _ (h.active hl) hk) rfl
  | rkInstalled _ t slot ht hs hk hf => exact h.snoc (e := .installed slot) trivial (by simp) rfl
  | rkFinished => exact h.snoc (e := .rekeyed ..) trivial (by simp) rfl
  | keyed | established | closed => exact ⟨h.log, h.active⟩
  | _ => exact h.snoc (by exact trivial) h.active rfl

lemma InGeneration.sealing (h : InGeneration .send b) {slot : KeySlot}
    (ha : (b.seal slot).MayWire a) : InGeneration .send a := by
  have hs : InGeneration .send (b.seal slot) :=
    h.snoc (e := .sealed slot.cipher slot.dataPidOut) trivial (by simp) rfl
  rcases ha with rfl | ⟨bytes, rfl⟩
  · exact hs
  · exact hs.snoc (e := .wire bytes) trivial (by simp) rfl

lemma InGeneration.moves (h : InGeneration l a) (hm : ReflTransGen (Move S addr n l) a b) :
    InGeneration l b := by
  induction hm with
  | refl => exact h
  | tail _ hm ih => exact ih.move hm

end Moves

/-! ### Runs -/

/-- What reaches the main context has key id 0, and the main context is only used while
the active slot has key id 0 too. -/
def SameGeneration (w : World Conn) : Event Conn → Prop
  | .control _ ctrl replayPid =>
    accepts w replayPid = true → ctrl.op = .controlV1 → isRekey w.sess ctrl = false →
      ctrl.keyId = 0 ∧ w.sess.activeKeyId = 0
  | .shutdown _ => w.sess.activeKeyId = 0
  | _ => True

instance (w : World Conn) (e : Event Conn) : Decidable (SameGeneration w e) :=
  match e with
  | .control .. => inferInstanceAs (Decidable (_ → _ → _ → _ ∧ _))
  | .shutdown _ => inferInstanceAs (Decidable (_ = _))
  | .data .. | .tun .. | .ping _ | .rekey _ | .retransmit _ | .shared _ => instDecidableTrue

lemma InGeneration.step {S : VpnServer Conn} {addr : SocketAddr} {w : World Conn}
    {e : Event Conn} {a : Abs} (h : ∀ e ∈ w.log, e.InGeneration) (hc : SameGeneration w e)
    (hr : Reacts S addr w e a) : ∀ e ∈ a.log, e.InGeneration := by
  -- nothing is asked of the slots in the lanes that leave the main context alone
  have hsend : InGeneration .send w.abs := ⟨h, by simp⟩
  have hhear : ∀ ctrl, ∀ e ∈ (w.abs.hear ctrl).log, e.InGeneration := by
    intro ctrl e he
    rw [log_hear, List.mem_append, ackOf] at he
    rcases he with he | he
    · exact h e he
    · split at he <;> simp at he
      exact he ▸ trivial
  cases hr with
  | rejected | refused | tunIdle | pingIdle | rekeyIdle | shared => exact h
  | @main env ctrl replayPid _ hacc hop hrk hm =>
    obtain ⟨hk, hact⟩ := hc hacc hop hrk
    have htable : (w.abs.hear ctrl).table = w.sess.toSlotTable :=
      congrArg SlotView.table (slotView_hear w.abs ctrl)
    have hfed : InGeneration .main ((w.abs.hear ctrl).tell (.feed .main ctrl)) :=
      InGeneration.snoc ⟨hhear ctrl, fun _ => htable ▸ hact⟩ (e := .feed .main ctrl) hk
        (fun _ => htable ▸ hact) rfl
    exact (hfed.moves hm).log
  | @rekeying env ctrl replayPid _ hacc hop t hrk hk hm =>
    have hfed : InGeneration .rekey ((w.abs.hear ctrl).tell (.feed (.rekey t.keyId) ctrl)) :=
      InGeneration.snoc ⟨hhear ctrl, by simp⟩ (e := .feed (.rekey t.keyId) ctrl) hk.symm
        (by simp) rfl
    exact (hfed.moves hm).log
  | @softReset env ctrl replayPid _ hacc hop hrk hs reply hp hm =>
    have hreset : InGeneration .send
        (((w.abs.hear ctrl).startRekey ctrl.keyId).build (.reset reply)) :=
      InGeneration.snoc ⟨hhear ctrl, by simp⟩ (e := .reset reply) trivial (by simp) rfl
    exact (hreset.moves hm).log
  | heard hacc hop => exact hhear _
  | opened dp i slot plaintext ho =>
    exact (hsend.snoc (e := .opened slot.cipher dp.packetId _) trivial (by simp) rfl).log
  | @forwarded env pkt dp i slot plaintext ho =>
    have hopened := hsend.snoc (b := (w.opened pkt dp i slot).abs)
      (e := .opened slot.cipher dp.packetId pkt) trivial (by simp) rfl
    exact (hopened.snoc (e := .tun pkt plaintext) trivial (by simp) rfl).log
  | tun slot hs ha => exact (hsend.sealing ha).log
  | ping slot hs ha => exact (hsend.sealing ha).log
  | rekey hrk hs pkt hp hm =>
    have hreset : InGeneration .send
        ((w.abs.startRekey ((w.sess.activeKeyId + 1) &&& 7)).build (.reset pkt)) :=
      InGeneration.snoc ⟨h, by simp⟩ (e := .reset pkt) trivial (by simp) rfl
    exact (hreset.moves hm).log
  | retransmit hm => exact (hsend.moves hm).log
  | shutdown hm => exact (InGeneration.moves (a := w.abs) ⟨h, fun _ => hc⟩ hm).log

lemma inGeneration_started (S : VpnServer Conn) (o : Opening Conn) :
    ∀ e ∈ (started S o).log, e.InGeneration := by
  obtain ⟨reply, -, hm⟩ := started_moves S ⟨.v4 0, 0⟩ o
  have hreset : InGeneration .send ((Abs.opening o.tab o.peerId).build (.reset reply)) :=
    InGeneration.snoc (a := Abs.opening o.tab o.peerId) ⟨nofun, by simp⟩ (e := .reset reply)
      trivial (by simp) rfl
  exact (hreset.moves hm).log

/-- **Packets stay in their generation.** In every run in which the main context is given
and asked only what belongs to key id 0, each context is used with packets of the key id it
was negotiated under. -/
theorem packets_inGeneration (S : VpnServer Conn) (addr : SocketAddr) (o : Opening Conn)
    (es : List (Event Conn)) (hc : AllMeet (step S addr) SameGeneration (started S o) es) :
    ∀ e ∈ (run (step S addr) (started S o) es).log, e.InGeneration :=
  run_keeps (I := fun w => ∀ e ∈ w.log, e.InGeneration)
    (fun w e hw hce => InGeneration.step hw hce (step_reacts S addr w e))
    (inGeneration_started S o) hc

theorem packets_inGeneration_clientRekey :
    let w := run (step plainServer plainAddr) (started plainServer plainOpening)
      (establishing :: clientRekey 1)
    w.sess.activeKeyId = 1 ∧ ∀ e ∈ w.log, e.InGeneration :=
  ⟨by decide +kernel,
    packets_inGeneration plainServer plainAddr plainOpening _ (by decide +kernel)⟩

/-- After a rekey to key id 1, a retransmitted packet of that rekey is fed into the main
context, and the `RESTART` the main context has to say is labelled with key id 1. -/
theorem packets_change_generation :
    let w := run (step plainServer plainAddr) (started plainServer plainOpening)
      (establishing :: clientRekey 1)
    let late := step plainServer plainAddr w
      (.control (plainEnv 2) (clientPacket .controlV1 1 3 (clientKm2 4)) none)
    let restart := step plainServer plainAddr w (.shutdown (plainEnv 2))
    (∀ e ∈ w.log, e.InGeneration) ∧ ¬ (∀ e ∈ late.log, e.InGeneration) ∧
      ¬ ∀ e ∈ restart.log, e.InGeneration := by
  decide +kernel

end Javs
