import Javs.ControlPackets

/-!
The acknowledgements of a session, over whole runs.

A packet id is owed an acknowledgement when it is heard for the first time. It is owed until a
flush puts it into a packet, and what has been put into packets is not owed again. So the ids
acknowledged so far, followed by those still owed, are the ids heard, each once and in the order
of their first arrival. The replies to resets acknowledge on their own account and do not count.
-/

namespace Javs

open Lib Relation

variable {Conn : Type} {S : VpnServer Conn} {w : World Conn}

/-- The ids a flush puts into a packet it builds, whether or not the packet can then be sent. -/
def Effect.acknowledged : Effect → List UInt32
  | .frag _ p => p.acks
  | .ack p => p.acks
  | _ => []

def acknowledged (log : List Effect) : List UInt32 := log.flatMap Effect.acknowledged

/-- The packet id that an event brings past the envelope's replay check. -/
def heardId (w : World Conn) : Event Conn → Option UInt32
  | .control _ ctrl replayPid => if accepts w replayPid then ctrl.packetId else none
  | _ => none

/-- The packet ids heard in a run, in order, repetitions included. -/
def heardIds (S : VpnServer Conn) (addr : SocketAddr) (w : World Conn) (es : List (Event Conn)) :
    List UInt32 :=
  (trace (step S addr) w es).filterMap fun x => heardId x.1 x.2

/-! ### The ledger -/

/-- What has been acknowledged and what is owed are the ids received. -/
def Balanced (a : Outward) : Prop := acknowledged a.said ++ a.pending = a.received.reverse

lemma acknowledged_snoc (said : List Effect) (e : Effect) :
    acknowledged (said ++ [e]) = acknowledged said ++ e.acknowledged := by
  simp [acknowledged]

lemma acknowledged_speech (log : List Effect) :
    acknowledged (speech log) = acknowledged log := by
  induction log with
  | nil => rfl
  | cons e log ih =>
    have hcons (l : List Effect) : acknowledged (e :: l) = e.acknowledged ++ acknowledged l := rfl
    rcases h : e.isSpeech
    · have hnone : e.acknowledged = [] := by cases e <;> first | rfl | cases h
      have hskip : speech (e :: log) = speech log := List.filter_cons_of_neg (by simp [h])
      rw [hskip, ih, hcons, hnone, List.nil_append]
    · have hkeep : speech (e :: log) = e :: speech log := List.filter_cons_of_pos h
      rw [hkeep, hcons, hcons, ih]

lemma invariant_balanced : Outward.Invariant Balanced where
  clock _ _ _ _ _ h := h
  noted a ctrl h := by
    unfold Outward.noted
    split <;> dsimp only
    · split
      · exact h
      · show acknowledged a.said ++ (a.pending ++ _) = (_ :: a.received).reverse
        rw [List.reverse_cons, ← List.append_assoc, h]
    · exact h
  draft a heard pkt d h hd := by
    unfold Balanced at h
    cases hd with
    -- a fragment and a bare acknowledgement take all that is owed with them
    | fragment ctx keyId hc =>
      simp only [Balanced, Outward.tell, acknowledged_snoc, Effect.acknowledged, Outward.fragment,
        List.append_nil, h]
    | ack keyId hp =>
      simp only [Balanced, Outward.tell, acknowledged_snoc, Effect.acknowledged, Outward.bareAck,
        List.append_nil, h]
    | answer hop keyId =>
      simp only [Balanced, Outward.tell, acknowledged_snoc, Effect.acknowledged, List.append_nil, h]
    | request keyId =>
      simp only [Balanced, Outward.tell, acknowledged_snoc, Effect.acknowledged, List.append_nil, h]
  sent a _ _ bs h := by
    have hnone : acknowledged (bs.map Effect.wire) = [] := by
      simp [acknowledged, List.flatMap_map, Effect.acknowledged]
    have hsaid : acknowledged (a.said ++ bs.map Effect.wire) = acknowledged a.said := by
      rw [acknowledged, List.flatMap_append]
      exact (congrArg _ hnone).trans (List.append_nil _)
    show acknowledged (a.said ++ bs.map Effect.wire) ++ a.pending = _
    rw [hsaid]
    exact h
  rekeyed a keyId before after h := by
    unfold Balanced at h
    simp only [Balanced, Outward.tell, acknowledged_snoc, Effect.acknowledged, List.append_nil, h]

/-! ### What is received -/

section Received

variable {us : List Utterance} {a b : Outward} {heard : Option UInt32}

lemma Drafts.received {pkt : ControlPacket} (h : Drafts heard a pkt b) :
    b.received = a.received := by
  cases h <;> rfl

lemma Speaks.received (h : Speaks S heard a us b) : b.received = a.received := by
  induction h with
  | silent => rfl
  | speak _ hd sent _ ih =>
    rw [← ih, ← hd.received]
    rcases sent <;> rfl
  | renewed _ _ _ _ ih => exact ih

lemma Resends.received (h : Resends S a us b) : b.received = a.received := by
  induction h with
  | nil => rfl
  | cons _ _ _ _ ih => exact ih

lemma received_step (addr : SocketAddr) (w : World Conn) (e : Event Conn) :
    (step S addr w e).sess.receivedPids =
      ((heardId w e).filter fun id => !w.sess.receivedPids.contains id).toList ++
        w.sess.receivedPids := by
  obtain ⟨us, hus⟩ := step_shows S addr w e
  show (step S addr w e).outward.received = _
  generalize (step S addr w e).outward = b at hus
  cases hus with
  | idle hc hr => cases e <;> first | rfl | exact absurd rfl (hc _ _ _)
  | refused he h =>
    subst he
    simp [heardId, h]
    rfl
  | @heard env ctrl replayPid _ _ he h hs =>
    subst he
    have hheard : heardId w (.control env ctrl replayPid) = ctrl.packetId := if_pos h
    rw [hs.received, hheard]
    unfold Outward.noted
    rcases ctrl.packetId with _ | id
    · rfl
    · dsimp only
      split
      · rename_i hmem
        change w.sess.receivedPids.contains id = true at hmem
        rw [Option.filter_some, if_neg (by simpa using hmem)]
        rfl
      · rename_i hmem
        change ¬ w.sess.receivedPids.contains id = true at hmem
        rw [Option.filter_some, if_pos (by simpa using hmem)]
        rfl
  | opened he => subst he; rfl
  | sealed he => rcases he with ⟨ipPkt, rfl⟩ | rfl <;> rfl
  | requested he _ _ _ hs => subst he; exact hs.received
  | resent he _ hr => subst he; exact hr.received
  | restarted he hs => subst he; exact hs.received

end Received

lemma received_run (addr : SocketAddr) (o : Opening Conn) (es : List (Event Conn)) :
    (run (step S addr) (started S o) es).sess.receivedPids.reverse =
      (heardIds S addr (started S o) es).eraseDups := by
  induction es using List.reverseRecOn with
  | nil =>
    obtain ⟨us, hus⟩ := started_speaks S o
    exact congrArg List.reverse hus.received
  | append_singleton es e ih =>
    have hids : heardIds S addr (started S o) (es ++ [e]) =
        heardIds S addr (started S o) es ++
          (heardId (run (step S addr) (started S o) es) e).toList := by
      unfold heardIds
      rw [trace_append, List.filterMap_append]
      rcases h : heardId (run (step S addr) (started S o) es) e <;> simp [h]
    -- by induction the ids received are those heard before this event
    have hmem (id : UInt32) : id ∈ (run (step S addr) (started S o) es).sess.receivedPids ↔
        id ∈ heardIds S addr (started S o) es := by
      rw [← List.mem_reverse, ih, List.mem_eraseDups]
    rw [run_append, run_cons, run_nil, received_step, List.reverse_append, ih, hids,
      List.eraseDups_append]
    congr 1
    rcases heardId (run (step S addr) (started S o) es) e with _ | id
    · rfl
    · by_cases h : id ∈ heardIds S addr (started S o) es
      · simp [Option.filter_some, hmem, h, List.removeAll]
      · simp [Option.filter_some, hmem, h, List.removeAll]
        rfl

/-- **The flushes account for every id heard once.** After any events, the ids that flushes have put
into the packets they built, followed by those still owed, are the ids heard, each once, in the
order in which they were heard first. -/
theorem acknowledged_once (S : VpnServer Conn) (addr : SocketAddr) (o : Opening Conn)
    (es : List (Event Conn)) :
    acknowledged (run (step S addr) (started S o) es).log ++
        (run (step S addr) (started S o) es).sess.pendingAcks =
      (heardIds S addr (started S o) es).eraseDups := by
  have hbal := invariant_balanced.session S addr o rfl es
  rw [← received_run, ← acknowledged_speech]
  exact hbal

end Javs
