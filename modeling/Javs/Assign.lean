import Javs.React

/-!
What an event can do to the tunnel addresses of a session.

Addresses are handed out once, on the way to the established state: an IPv4 address that
was free or stood next in the pool, and then, if there is a pool for it, the next IPv6
address. Nothing else touches the routes.
-/

namespace Javs

open Lib Relation

variable {Conn : Type}

def State.unkeyed : State → Bool
  | .waitingHardReset | .handshaking | .keyExchange => true
  | _ => false

/-- The session may still be given addresses. -/
def State.early : State → Bool
  | .established | .closed => false
  | _ => true

/-- A session's addresses, and the tables they are entered in. -/
structure Holding where
  state : State
  ip : Option IpAddr
  ip6 : Option Ipv6Addr
  peerId : UInt32
  tab : Tables

def Abs.holding (a : Abs) : Holding := ⟨a.state, a.ip, a.ip6, a.peerId, a.tab⟩

def TakesV4 (addr : SocketAddr) (h h' : Holding) (ip : Ipv4Addr) : Prop :=
  h'.ip = some (.v4 ip) ∧ h'.tab.routes = Function.update h.tab.routes ip (some addr) ∧
    (h.tab.routes ip = none ∨ ip = h.tab.nextPoolIp)

def TakesV6 (addr : SocketAddr) (h h' : Holding) (ip : Ipv6Addr) : Prop :=
  h'.ip6 = some ip ∧ h'.tab.routesV6 = Function.update h.tab.routesV6 ip (some addr) ∧
    h.tab.nextPoolIpV6 = some ip

/-- What an event does to the addresses of a session. -/
structure Assigns (addr : SocketAddr) (h h' : Holding) : Prop where
  peerId : h'.peerId = h.peerId
  v4 : (h'.ip = h.ip ∧ h'.tab.routes = h.tab.routes) ∨
    (h.state.early = true ∧ ∃ ip, TakesV4 addr h h' ip)
  v6 : (h'.ip6 = h.ip6 ∧ h'.tab.routesV6 = h.tab.routesV6) ∨
    (h.state.early = true ∧ ∃ ip, TakesV6 addr h h' ip)
  unkeyed : h'.state.unkeyed = true → h.state.unkeyed = true ∧ h'.ip = h.ip ∧ h'.ip6 = h.ip6

lemma Assigns.refl (addr : SocketAddr) (h : Holding) : Assigns addr h h :=
  ⟨rfl, .inl ⟨rfl, rfl⟩, .inl ⟨rfl, rfl⟩, fun hu => ⟨hu, rfl, rfl⟩⟩

/-! ### The main track -/

/-- How far the main track has come from `h`. The flags tell whether an IPv4 and an IPv6
address have been assigned on the way. -/
structure Pushing (addr : SocketAddr) (h h' : Holding) (v4 v6 : Bool) : Prop where
  peerId : h'.peerId = h.peerId
  early : h'.state.early = true → h.state.early = true
  unkeyed : h'.state.unkeyed = true → h.state.unkeyed = true ∧ v4 = false ∧ v6 = false
  some4 : v4 = true → h.state.early = true ∧ ∃ ip, TakesV4 addr h h' ip
  none4 : v4 = false →
    h'.ip = h.ip ∧ h'.tab.routes = h.tab.routes ∧ h'.tab.nextPoolIp = h.tab.nextPoolIp
  some6 : v6 = true → h.state.early = true ∧ ∃ ip, TakesV6 addr h h' ip
  none6 : v6 = false →
    h'.ip6 = h.ip6 ∧ h'.tab.routesV6 = h.tab.routesV6 ∧ h'.tab.nextPoolIpV6 = h.tab.nextPoolIpV6

lemma Pushing.refl (addr : SocketAddr) (h : Holding) : Pushing addr h h false false :=
  ⟨rfl, id, fun hu => ⟨hu, rfl, rfl⟩, nofun, fun _ => ⟨rfl, rfl, rfl⟩, nofun,
    fun _ => ⟨rfl, rfl, rfl⟩⟩

lemma Pushing.assigns {addr : SocketAddr} {h h' : Holding} {v4 v6 : Bool}
    (hp : Pushing addr h h' v4 v6) : Assigns addr h h' := by
  refine ⟨hp.peerId, ?_, ?_, fun hu => ?_⟩
  · cases v4 with
    | true => exact .inr (hp.some4 rfl)
    | false => exact .inl ⟨(hp.none4 rfl).1, (hp.none4 rfl).2.1⟩
  · cases v6 with
    | true => exact .inr (hp.some6 rfl)
    | false => exact .inl ⟨(hp.none6 rfl).1, (hp.none6 rfl).2.1⟩
  · obtain ⟨h0, h4, h6⟩ := hp.unkeyed hu
    exact ⟨h0, (hp.none4 h4).1, (hp.none6 h6).1⟩

lemma Pushing.advance {addr : SocketAddr} {h h' : Holding} {v4 v6 : Bool}
    (hp : Pushing addr h h' v4 v6) {st : State}
    (he : st.early = true → h'.state.early = true)
    (hu : st.unkeyed = true → h'.state.unkeyed = true) :
    Pushing addr h { h' with state := st } v4 v6 :=
  ⟨hp.peerId, fun hs => hp.early (he hs), fun hs => hp.unkeyed (hu hs), hp.some4, hp.none4,
    hp.some6, hp.none6⟩

section Moves

variable {S : VpnServer Conn} {addr : SocketAddr} {n : ℕ} {l : Lane} {a b : Abs} {h : Holding}

def PushingSince (addr : SocketAddr) (n : ℕ) (h : Holding) (a : Abs) : Prop :=
  n ≤ a.log.length ∧ Pushing addr h a.holding (assignedSince n a.log) (assignedV6Since n a.log)

lemma PushingSince.silent (hp : PushingSince addr n h a) {e : Effect}
    (hh : b.holding = a.holding) (hl : b.log = a.log ++ [e]) (h4 : e.isAssigned = false)
    (h6 : e.isAssignedV6 = false) : PushingSince addr n h b := by
  obtain ⟨hlen, hp⟩ := hp
  refine ⟨by simp [hl, hlen.trans], ?_⟩
  rw [hh, hl, assignedSince, assignedV6Since, any_drop_append hlen, any_drop_append hlen, h4, h6,
    Bool.or_false, Bool.or_false]
  exact hp

lemma Pushing.takeV4 {h' : Holding} {v6 : Bool} (hp : Pushing addr h h' false v6)
    (hs : h'.state = .pushPending) {ip next : Ipv4Addr}
    (hip : h'.tab.routes ip = none ∨ ip = h'.tab.nextPoolIp) :
    Pushing addr h { h' with
      ip := some (.v4 ip)
      tab := { h'.tab with routes := Function.update h'.tab.routes ip (some addr)
                           nextPoolIp := next } } true v6 := by
  obtain ⟨-, hroutes, hnext⟩ := hp.none4 rfl
  have he : h.state.early = true := hp.early (by rw [hs]; rfl)
  refine ⟨hp.peerId, hp.early, fun hu => ?_, fun _ => ⟨he, ip, rfl, ?_, ?_⟩, nofun, hp.some6,
    hp.none6⟩
  · simp [hs, State.unkeyed] at hu
  · rw [hroutes]
  · rwa [hroutes, hnext] at hip

lemma Pushing.takeV6 {h' : Holding} {v4 : Bool} (hp : Pushing addr h h' v4 false)
    (hs : h'.state = .pushPending) {ip : Ipv6Addr} {next : Option Ipv6Addr}
    (hip : h'.tab.nextPoolIpV6 = some ip) :
    Pushing addr h { h' with
      ip6 := some ip
      tab := { h'.tab with routesV6 := Function.update h'.tab.routesV6 ip (some addr)
                           nextPoolIpV6 := next } } v4 true := by
  obtain ⟨-, hroutes, hnext⟩ := hp.none6 rfl
  have he : h.state.early = true := hp.early (by rw [hs]; rfl)
  refine ⟨hp.peerId, hp.early, fun hu => ?_, hp.some4, hp.none4, fun _ => ⟨he, ip, rfl, ?_, ?_⟩,
    nofun⟩
  · simp [hs, State.unkeyed] at hu
  · rw [hroutes]
  · rwa [hnext] at hip

lemma PushingSince.assigned (hlen : n ≤ a.log.length) {e : Effect} (hl : b.log = a.log ++ [e])
    (hp : Pushing addr h b.holding (assignedSince n a.log || e.isAssigned)
      (assignedV6Since n a.log || e.isAssignedV6)) : PushingSince addr n h b := by
  refine ⟨by simp [hl, hlen.trans], ?_⟩
  rwa [hl, assignedSince, assignedV6Since, any_drop_append hlen, any_drop_append hlen]

lemma PushingSince.move (hp : PushingSince addr n h a) (hm : Move S addr n .main a b) :
    PushingSince addr n h b := by
  obtain ⟨hlen, hp'⟩ := id hp
  cases hm with
  | wire | sent | ack | drained | frag | installed => exact hp.silent rfl rfl rfl rfl
  | handshaken _ hs =>
    refine PushingSince.silent (a := { a with state := .keyExchange }) ⟨hlen, ?_⟩ rfl rfl rfl rfl
    exact hp'.advance (fun _ => by simp [Abs.holding, hs, State.early])
      fun _ => by simp [Abs.holding, hs, State.unkeyed]
  | keyed _ hs ha =>
    exact ⟨hlen, hp'.advance (fun _ => by simp [Abs.holding, hs, State.early]) nofun⟩
  | established _ hs ha => exact ⟨hlen, hp'.advance nofun nofun⟩
  | closed _ hs => exact ⟨hlen, hp'.advance nofun nofun⟩
  -- each address is assigned at most once, which the flag of its kind tells
  | assignStatic _ ip hs hr hn =>
    rw [hn] at hp'
    refine .assigned (e := .assigned ip) hlen rfl ?_
    rw [hn, show (Effect.assigned ip).isAssignedV6 = false from rfl, Bool.or_false]
    exact hp'.takeV4 hs (.inl hr)
  | assignPool _ hs hle hn =>
    rw [hn] at hp'
    refine .assigned (a := a) (e := .assigned a.tab.nextPoolIp) hlen rfl ?_
    rw [hn, show (Effect.assigned _).isAssignedV6 = false from rfl, Bool.or_false]
    exact hp'.takeV4 hs (.inr rfl)
  | assignV6 _ ip e hs hc he hle ha hn =>
    rw [hn] at hp'
    refine .assigned (e := .assignedV6 ip) hlen rfl ?_
    rw [hn, show (Effect.assignedV6 ip).isAssigned = false from rfl, Bool.or_false]
    exact hp'.takeV6 hs hc

lemma PushingSince.moves (hp : PushingSince addr n h a)
    (hm : ReflTransGen (Move S addr n .main) a b) : PushingSince addr n h b := by
  induction hm with
  | refl => exact hp
  | tail _ hm ih => exact ih.move hm

lemma holding_moves (hm : ReflTransGen (Move S addr n l) a b) (hl : l ≠ .main) :
    b.holding = a.holding := by
  induction hm with
  | refl => rfl
  | tail _ hm ih =>
    rw [← ih]
    cases hm <;> first | rfl | exact absurd rfl hl

end Moves

/-! ### Events -/

section Events

variable {S : VpnServer Conn} {addr : SocketAddr} {w : World Conn} {a : Abs}

lemma holding_hear (a : Abs) (ctrl : ControlPacket) : (a.hear ctrl).holding = a.holding := by
  unfold Abs.hear
  split <;> rfl

lemma holding_seal {b : Abs} {slot : KeySlot} (ha : (b.seal slot).MayWire a) :
    a.holding = b.holding := by
  rcases ha with rfl | ⟨bytes, rfl⟩ <;> rfl

lemma pushingSince_fed (w : World Conn) (ctrl : ControlPacket) :
    PushingSince addr w.log.length w.abs.holding
      ((w.abs.hear ctrl).tell (.feed .main ctrl)) := by
  have hlog : ((w.abs.hear ctrl).tell (.feed .main ctrl)).log =
      w.log ++ (ackOf ctrl ++ [.feed .main ctrl]) := by
    rw [Abs.tell, log_hear, List.append_assoc]
    rfl
  refine ⟨by simp [hlog], ?_⟩
  have hack : ∀ p : Effect → Bool, p (.acked ctrl.acks) = false → p (.feed .main ctrl) = false →
      ((w.log ++ (ackOf ctrl ++ [Effect.feed .main ctrl])).drop w.log.length).any p = false := by
    intro p h1 h2
    rw [List.drop_left]
    unfold ackOf
    split <;> simp [h1, h2]
  rw [hlog, assignedSince, assignedV6Since, hack _ rfl rfl, hack _ rfl rfl]
  exact (holding_hear w.abs ctrl) ▸ Pushing.refl addr _

lemma Reacts.holding_or_main {e : Event Conn} (h : Reacts S addr w e a)
    (he : ∀ tab, e ≠ .shared tab) : a.holding = w.abs.holding ∨
      ∃ env ctrl replayPid, e = .control env ctrl replayPid ∧ accepts w replayPid = true ∧
        ctrl.op = .controlV1 ∧ isRekey w.sess ctrl = false ∧
        ReflTransGen (Move S addr w.log.length .main)
          ((w.abs.hear ctrl).tell (.feed .main ctrl)) a := by
  cases h with
  | main hacc hop hr hm => exact .inr ⟨_, _, _, rfl, hacc, hop, hr, hm⟩
  | rejected | refused | tunIdle | pingIdle | rekeyIdle | opened | forwarded => exact .inl rfl
  | rekeying hacc hop t hr hk hm =>
    exact .inl ((holding_moves hm nofun).trans (holding_hear w.abs _))
  | softReset hacc hop hr hs reply hp hm =>
    exact .inl ((holding_moves hm nofun).trans (holding_hear w.abs _))
  | heard hacc hop => exact .inl (holding_hear w.abs _)
  | tun slot hs ha => exact .inl (holding_seal ha)
  | ping slot hs ha => exact .inl (holding_seal ha)
  | rekey hr hs pkt hp hm => exact .inl ((holding_moves hm nofun).trans rfl)
  | retransmit hm => exact .inl (holding_moves hm nofun)
  | shutdown hm => exact .inl (holding_moves hm nofun)
  | shared => exact absurd rfl (he _)

/-- **Addresses.** An event of the session itself hands out at most one address of each
kind, and only on the way to the established state. -/
theorem Reacts.assigns {e : Event Conn} (h : Reacts S addr w e a) (he : ∀ tab, e ≠ .shared tab) :
    Assigns addr w.abs.holding a.holding := by
  rcases h.holding_or_main he with hh | ⟨env, ctrl, replayPid, -, -, -, -, hm⟩
  · rw [hh]
    exact .refl addr _
  · exact ((pushingSince_fed w _).moves hm).2.assigns

lemma Reacts.holding {e : Event Conn} (h : Reacts S addr w e a) (he : ∀ tab, e ≠ .shared tab)
    (hc : ∀ env ctrl replayPid, e ≠ .control env ctrl replayPid) :
    a.holding = w.abs.holding :=
  (h.holding_or_main he).resolve_right fun ⟨_, _, _, heq, _⟩ => hc _ _ _ heq

end Events

end Javs
