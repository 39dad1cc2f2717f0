import Mathlib.Data.List.Perm.Basic
import Javs.React

/-!
What the server feeds into TLS: every accepted `P_CONTROL_V1`, once for each arrival, in the
order of arrival.

Packet ids are recorded for acknowledgement only. Duplicates and reordering on the network
therefore reach the TLS contexts unless the packets themselves come without them.
-/

namespace Javs

open Lib Relation

variable {Conn : Type} (S : VpnServer Conn) (addr : SocketAddr)

def Effect.fed? : Effect → Option (Ctx × ControlPacket)
  | .feed ctx pkt => some (ctx, pkt)
  | _ => none

def feeds (log : List Effect) : List (Ctx × ControlPacket) := log.filterMap Effect.fed?

/-- The `P_CONTROL_V1` an event brings past the envelope's replay check. -/
def arrival (w : World Conn) : Event Conn → Option ControlPacket
  | .control _ ctrl replayPid =>
    if ctrl.op = .controlV1 ∧ accepts w replayPid then some ctrl else none
  | _ => none

def arrivals (w : World Conn) (es : List (Event Conn)) : List (Ctx × ControlPacket) :=
  (trace (step S addr) w es).filterMap fun x =>
    (arrival x.1 x.2).map fun ctrl => (ctxOf x.1 ctrl, ctrl)

variable {S addr}

lemma fed?_of_move (e : Effect) (he : e.ofEvent = false) : e.fed? = none := by
  cases e <;> first | rfl | cases he

lemma fed?_ackOf (ctrl : ControlPacket) : (ackOf ctrl).filterMap Effect.fed? = [] := by
  unfold ackOf
  split <;> rfl

lemma feeds_step (w : World Conn) (e : Event Conn) :
    feeds (step S addr w e).log =
      feeds w.log ++ ((arrival w e).map fun ctrl => (ctxOf w ctrl, ctrl)).toList := by
  obtain ⟨es, ho, hl⟩ := (step_reacts S addr w e).own fed?_of_move
  change feeds (step S addr w e).abs.log = _
  rw [feeds, hl]
  congr 1
  cases ho with
  | rejected h => simp [arrival, h]
  | fed h hop => simp [arrival, h, hop, List.filterMap_append, fed?_ackOf, Effect.fed?]
  | heard h hop => simp [arrival, hop, fed?_ackOf]
  | idle hc hd => cases e <;> first | rfl | exact absurd rfl (hc _ _ _)
  | _ => rfl

lemma feeds_run (w : World Conn) (es : List (Event Conn)) :
    feeds (run (step S addr) w es).log = feeds w.log ++ arrivals S addr w es := by
  rw [arrivals, List.filterMap_eq_flatMap_toList]
  exact run_collects (f := fun w : World Conn => feeds w.log) feeds_step w es

lemma feeds_started (o : Opening Conn) : feeds (started S o).log = [] :=
  filterMap_started fed?_of_move o

/-! ### Duplicates -/

/-- How a client control packet is identified. -/
def ControlPacket.ident (pkt : ControlPacket) : UInt8 × Option UInt32 := (pkt.keyId, pkt.packetId)

/-- **Payloads are fed once exactly when packets arrive once.** -/
theorem feeds_nodup_iff (S : VpnServer Conn) (addr : SocketAddr) (o : Opening Conn)
    (es : List (Event Conn)) :
    ((feeds (run (step S addr) (started S o) es).log).map (·.2.ident)).Nodup ↔
      ((arrivals S addr (started S o) es).map (·.2.ident)).Nodup := by
  rw [feeds_run, feeds_started, List.nil_append]

/-- A client retransmits its first packet before the acknowledgement reaches it: same packet
id, same payload, fed twice. -/
theorem feeds_twice :
    ¬ ((feeds (run (step plainServer plainAddr) (started plainServer plainOpening)
      [.control (plainEnv 1) (clientPacket .controlV1 0 1 [0, 0]) none,
       .control (plainEnv 1) (clientPacket .controlV1 0 1 [0, 0]) none]).log).map
      (·.2.ident)).Nodup := by
  decide +kernel

/-! ### Order -/

def fedBytes (log : List Effect) : Bytes :=
  ((feeds log).filter (·.1 = .main)).flatMap (·.2.payload)

/-- `ps` carry the packet ids `first`, `first + 1`, and so on. -/
def Consecutive (first : UInt32) (ps : List ControlPacket) : Prop :=
  ∀ k (h : k < ps.length), ps[k].packetId = some (first + UInt32.ofNat k)

/-- A `P_CONTROL_V1` comes past the replay check, not to a rekey in progress, and with the
packet id that follows those fed before. -/
def InOrder (first : UInt32) (w : World Conn) (e : Event Conn) : Prop :=
  ∀ env ctrl replayPid, e = .control env ctrl replayPid → ctrl.op = .controlV1 →
    accepts w replayPid = true ∧ isRekey w.sess ctrl = false ∧
      ctrl.packetId = some (first + UInt32.ofNat (feeds w.log).length)

def controls (es : List (Event Conn)) : List ControlPacket :=
  es.filterMap fun
    | .control _ ctrl _ => if ctrl.op = .controlV1 then some ctrl else none
    | _ => none

lemma controls_append (es fs : List (Event Conn)) :
    controls (es ++ fs) = controls es ++ controls fs :=
  List.filterMap_append ..

lemma arrivals_cons (w : World Conn) (e : Event Conn) (es : List (Event Conn)) :
    arrivals S addr w (e :: es) =
      ((arrival w e).map fun ctrl => (ctxOf w ctrl, ctrl)).toList ++
        arrivals S addr (step S addr w e) es := by
  rw [arrivals, trace_cons, List.filterMap_cons]
  rcases arrival w e with _ | ctrl <;> rfl

lemma arrival_inOrder {first : UInt32} {w : World Conn} {e : Event Conn} (h : InOrder first w e) :
    ((arrival w e).map fun ctrl => (ctxOf w ctrl, ctrl)).toList =
      (controls [e]).map fun c => (.main, c) := by
  cases e with
  | control env ctrl replayPid =>
    by_cases hop : ctrl.op = .controlV1
    · obtain ⟨hacc, hrk, -⟩ := h env ctrl replayPid rfl hop
      simp [arrival, controls, ctxOf, hop, hacc, hrk]
    · simp [arrival, controls, hop]
  | _ => rfl

lemma arrivals_inOrder {first : UInt32} {w : World Conn} {es : List (Event Conn)}
    (h : AllMeet (step S addr) (InOrder first) w es) :
    arrivals S addr w es = (controls es).map fun c => (.main, c) := by
  induction es generalizing w with
  | nil => rfl
  | cons e es ih =>
    obtain ⟨h1, h2⟩ := allMeet_cons.mp h
    rw [arrivals_cons, ih h2, arrival_inOrder h1, ← List.map_append, ← controls_append,
      List.singleton_append]

lemma consecutive_cons {first : UInt32} {p : ControlPacket} {ps : List ControlPacket}
    (hp : p.packetId = some first) (h : Consecutive (first + 1) ps) :
    Consecutive first (p :: ps) := by
  intro k hk
  rcases k with _ | k
  · simpa using hp
  · have hnext := h k (by simpa using hk)
    rw [List.getElem_cons_succ, hnext, UInt32.ofNat_add, UInt32.add_assoc,
      UInt32.add_comm 1 (UInt32.ofNat k)]
    rfl

lemma controls_inOrder {first : UInt32} {w : World Conn} {es : List (Event Conn)}
    (h : AllMeet (step S addr) (InOrder first) w es) :
    Consecutive (first + UInt32.ofNat (feeds w.log).length) (controls es) := by
  induction es generalizing w with
  | nil => intro k hk; simp [controls] at hk
  | cons e es ih =>
    obtain ⟨h1, h2⟩ := allMeet_cons.mp h
    have hrest := ih h2
    rw [feeds_step, arrival_inOrder h1, List.length_append, List.length_map] at hrest
    rw [← List.singleton_append, controls_append]
    rcases hc : controls [e] with _ | ⟨ctrl, t⟩
    · simpa [hc] using hrest
    · obtain ⟨env, replayPid, rfl, hop, rfl⟩ : ∃ env replayPid, e = .control env ctrl replayPid ∧
          ctrl.op = .controlV1 ∧ t = [] := by
        cases e <;> simp [controls] at hc
        rename_i env c replayPid
        by_cases hop : c.op = .controlV1 <;> simp [hop] at hc
        exact ⟨env, replayPid, by rw [hc.1], hc.1 ▸ hop, hc.2⟩
      rw [hc, List.length_singleton, UInt32.ofNat_add, ← UInt32.add_assoc] at hrest
      exact consecutive_cons (h1 env ctrl replayPid rfl hop).2.2 hrest

lemma Consecutive.eq_of_perm {first : UInt32} {ps qs : List ControlPacket}
    (hp : Consecutive first ps) (hq : Consecutive first qs) (h : qs.Perm ps)
    (hlen : ps.length ≤ 2 ^ 32) : qs = ps := by
  refine List.ext_getElem h.length_eq fun k hk hk' => ?_
  obtain ⟨j, hj, hjk⟩ := List.mem_iff_getElem.mp (h.mem_iff.mp (List.getElem_mem hk))
  have hid : first + UInt32.ofNat j = first + UInt32.ofNat k := by
    have h1 := hp j hj
    rw [hjk, hq k hk, Option.some_inj] at h1
    exact h1.symm
  have hjk' : j = k := by
    have h2 : UInt32.ofNat j = UInt32.ofNat k := by simpa using hid
    have h3 := congrArg UInt32.toNat h2
    rw [UInt32.toNat_ofNat', UInt32.toNat_ofNat'] at h3
    omega
  subst hjk'
  exact hjk.symm

lemma fedBytes_inOrder {first : UInt32} {o : Opening Conn} {es : List (Event Conn)}
    (h : AllMeet (step S addr) (InOrder first) (started S o) es) :
    fedBytes (run (step S addr) (started S o) es).log =
      (controls es).flatMap ControlPacket.payload := by
  rw [fedBytes, feeds_run, feeds_started, arrivals_inOrder h, List.nil_append, List.filter_map]
  simp [List.flatMap_map, Function.comp_def]

/-- **Payloads reach TLS in order when packets arrive in order.** -/
theorem fedBytes_ordered (S : VpnServer Conn) (addr : SocketAddr) (o : Opening Conn)
    (first : UInt32) (ps : List ControlPacket) (es : List (Event Conn))
    (hps : Consecutive first ps) (hlen : ps.length ≤ 2 ^ 32) (hperm : (controls es).Perm ps)
    (hord : AllMeet (step S addr) (InOrder first) (started S o) es) :
    (∀ es', es' <+: es → fedBytes (run (step S addr) (started S o) es').log <+:
      ps.flatMap ControlPacket.payload) ∧
    fedBytes (run (step S addr) (started S o) es).log = ps.flatMap ControlPacket.payload := by
  have hcons : Consecutive first (controls es) := by
    have h := controls_inOrder hord
    rw [feeds_started] at h
    simpa using h
  have hes : controls es = ps := hps.eq_of_perm hcons hperm hlen
  refine ⟨?_, by rw [fedBytes_inOrder hord, hes]⟩
  rintro es' ⟨fs, rfl⟩
  rw [fedBytes_inOrder (allMeet_append.mp hord).1, ← hes, controls_append, List.flatMap_append]
  exact List.prefix_append _ _

def twoPackets (ids : List UInt32) : List (Event Plain) :=
  ids.map fun pid => .control (plainEnv 1) (clientPacket .controlV1 0 pid [pid.toUInt8]) none

theorem fedBytes_ordered_twoPackets :
    fedBytes (run (step plainServer plainAddr) (started plainServer plainOpening)
      (twoPackets [1, 2])).log = [1, 2] := by
  refine (fedBytes_ordered plainServer plainAddr plainOpening 1
    [clientPacket .controlV1 0 1 [1], clientPacket .controlV1 0 2 [2]] (twoPackets [1, 2])
    ?_ (by decide) (List.Perm.refl _) ?_).2
  · exact consecutive_cons rfl (consecutive_cons rfl fun k hk => absurd hk (by simp))
  · rw [twoPackets, List.map_cons, List.map_cons, List.map_nil, allMeet_cons, allMeet_cons]
    refine ⟨?_, ?_, allMeet_nil⟩
    · rintro _ _ _ ⟨⟩ -
      decide +kernel
    · rintro _ _ _ ⟨⟩ -
      decide +kernel

/-- The second packet overtakes the first: it is fed at once, and the first after it. -/
theorem fedBytes_overtaken :
    ¬ fedBytes (run (step plainServer plainAddr) (started plainServer plainOpening)
        ((twoPackets [2, 1]).take 1)).log <+: [1, 2] ∧
      fedBytes (run (step plainServer plainAddr) (started plainServer plainOpening)
        (twoPackets [2, 1])).log = [2, 1] := by
  decide +kernel

end Javs
