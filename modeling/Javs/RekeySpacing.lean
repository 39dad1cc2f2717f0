import Javs.Transcript

/-!
How often the server asks for a rekey.

The time of the last rekey is written when the server asks for one and when one completes,
whoever asked for it. The server asks only if the renegotiation interval has passed since. So
over any run whose clock does not go back, a request of the server comes an interval after the
session began, after every earlier request of the server, and after every completed rekey.
-/

namespace Javs

open Lib

variable {Conn : Type} {S : VpnServer Conn} {w : World Conn}

def Effect.isRekeyed : Effect → Bool
  | .rekeyed .. => true
  | _ => false

def rekeyeds (log : List Effect) : ℕ := log.countP Effect.isRekeyed

def VpnServer.renegInterval (S : VpnServer Conn) : ℕ := S.cfg.renegSec.toNat * 1000

/-- What an event does to the rekey clock: the server asks for a rekey (`true`), or a rekey
completes (`false`), and when. -/
def rekeyMark (S : VpnServer Conn) (addr : SocketAddr) (w : World Conn) (e : Event Conn) :
    List (Bool × ℕ) :=
  let v := step S addr w e
  match e with
  | .rekey _ => if (packets w.log).length < (packets v.log).length then [(true, v.env.now)] else []
  | _ => if rekeyeds w.log < rekeyeds v.log then [(false, v.env.now)] else []

/-- The requests of the server and the completed rekeys of a run, in order. -/
def rekeyMarks (S : VpnServer Conn) (addr : SocketAddr) (w : World Conn) (es : List (Event Conn)) :
    List (Bool × ℕ) :=
  (trace (step S addr) w es).flatMap fun x => rekeyMark S addr x.1 x.2

/-- The time of an event, if it looks at the clock. -/
def Event.env? : Event Conn → Option (Env Conn)
  | .control env .. | .data env _ | .tun env _ | .ping env | .rekey env | .retransmit env
  | .shutdown env => some env
  | .shared _ => none

/-- The event does not come before the last one. -/
def Event.InTime (w : World Conn) (e : Event Conn) : Prop := ∀ env ∈ e.env?, w.env.now ≤ env.now

instance (w : World Conn) (e : Event Conn) : Decidable (e.InTime w) :=
  match h : e.env? with
  | none => isTrue fun env henv => by rw [h] at henv; cases henv
  | some env => decidable_of_iff (w.env.now ≤ env.now) (by simp [Event.InTime, h])

/-! ### One event -/

section Step

variable {us : List Utterance} {a b : Outward} {heard : Option UInt32}

lemma rekeyeds_snoc (said : List Effect) (e : Effect) :
    rekeyeds (said ++ [e]) = rekeyeds said + if e.isRekeyed then 1 else 0 := by
  simp [rekeyeds, List.countP_append, List.countP_singleton]

lemma rekeyeds_speech (log : List Effect) : rekeyeds (speech log) = rekeyeds log := by
  rw [rekeyeds, speech, List.countP_filter]
  refine List.countP_congr fun e _ => ?_
  cases e <;> simp [Effect.isRekeyed, Effect.isSpeech]

lemma Speaks.rekeyClock (h : Speaks S heard a us b) : b.now = a.now ∧
    (rekeyeds b.said = rekeyeds a.said ∧ b.lastRekeyAt = a.lastRekeyAt ∨
      b.lastRekeyAt = a.now) := by
  induction h with
  | silent => exact ⟨rfl, .inl ⟨rfl, rfl⟩⟩
  | @speak us c d pkt _ hd sent _ ih =>
    have hdraft : d.now = c.now ∧ rekeyeds d.said = rekeyeds c.said ∧
        d.lastRekeyAt = c.lastRekeyAt := by
      cases hd <;> exact ⟨rfl, rekeyeds_snoc _ _, rfl⟩
    have hutter : (d.utter S pkt sent).now = d.now ∧
        rekeyeds (d.utter S pkt sent).said = rekeyeds d.said ∧
        (d.utter S pkt sent).lastRekeyAt = d.lastRekeyAt := by
      rcases sent
      · exact ⟨rfl, rfl, rfl⟩
      · exact ⟨rfl, rekeyeds_snoc _ _, rfl⟩
    rw [hutter.1, hutter.2.1, hutter.2.2, hdraft.1, hdraft.2.1, hdraft.2.2]
    exact ih
  | renewed _ _ _ _ ih => exact ⟨ih.1, .inr ih.1⟩

lemma Resends.rekeyClock (h : Resends S a us b) :
    b.now = a.now ∧ rekeyeds b.said = rekeyeds a.said ∧ b.lastRekeyAt = a.lastRekeyAt := by
  induction h with
  | nil => exact ⟨rfl, rfl, rfl⟩
  | @cons a b us inner sent _ _ ih =>
    have hsent : rekeyeds (a.resent S sent).said = rekeyeds a.said := by
      rcases sent
      · exact congrArg rekeyeds (List.append_nil _)
      · exact rekeyeds_snoc _ _
    exact ⟨ih.1, ih.2.1.trans hsent, ih.2.2⟩

end Step

lemma of_mem_rekeyMark {addr : SocketAddr} {e : Event Conn} {m : Bool × ℕ}
    (hm : m ∈ rekeyMark S addr w e) : m.2 = (step S addr w e).outward.now ∧
      (m.1 = true ∧ (∃ env, e = .rekey env) ∧
          packets (step S addr w e).outward.said ≠ packets w.outward.said ∨
        m.1 = false ∧ rekeyeds (step S addr w e).outward.said ≠ rekeyeds w.outward.said) := by
  have hp (v : World Conn) : packets v.outward.said = packets v.log := packets_speech v.log
  have hr (v : World Conn) : rekeyeds v.outward.said = rekeyeds v.log := rekeyeds_speech v.log
  rw [hp, hp, hr, hr]
  unfold rekeyMark at hm
  dsimp only at hm
  split at hm <;> split at hm
  · rename_i env h
    obtain rfl := List.mem_singleton.mp hm
    exact ⟨rfl, .inl ⟨rfl, ⟨env, rfl⟩, fun e => by rw [e] at h; omega⟩⟩
  · cases hm
  · rename_i h
    obtain rfl := List.mem_singleton.mp hm
    exact ⟨rfl, .inr ⟨rfl, fun e => by rw [e] at h; omega⟩⟩
  · cases hm

structure RekeyClock (S : VpnServer Conn) (w : World Conn) (e : Event Conn) (b : Outward) :
    Prop where
  now : b.now = (e.env?.map Env.now).getD w.env.now
  last : b.lastRekeyAt = w.sess.lastRekeyAt ∨ b.lastRekeyAt = b.now
  completed : rekeyeds b.said ≠ rekeyeds w.outward.said → b.lastRekeyAt = b.now
  requested : (∃ env, e = .rekey env) → packets b.said ≠ packets w.outward.said →
    b.lastRekeyAt = b.now ∧ S.renegInterval ≤ b.now - w.sess.lastRekeyAt

lemma Speaks.clock {a b : Outward} {us : List Utterance} {heard : Option UInt32} {env : Env Conn}
    {e : Event Conn} (h : Speaks S heard a us b) (he : e.env? = some env)
    (hr : ∀ env, e ≠ .rekey env)
    (hnow : a.now = env.now) (hlast : a.lastRekeyAt = w.sess.lastRekeyAt)
    (hsaid : a.said = w.outward.said) : RekeyClock S w e b := by
  obtain ⟨hb, hcase⟩ := h.rekeyClock
  refine ⟨by rw [hb, hnow, he]; rfl, ?_, ?_, fun ⟨env, h⟩ => absurd h (hr env)⟩
  · rcases hcase with ⟨-, h⟩ | h
    · exact .inl (h.trans hlast)
    · exact .inr (h.trans hb.symm)
  · intro hne
    rcases hcase with ⟨h, -⟩ | h
    · exact absurd (h.trans (by rw [hsaid])) hne
    · exact h.trans hb.symm

lemma rekeyClock_step (S : VpnServer Conn) (addr : SocketAddr) (w : World Conn) (e : Event Conn) :
    RekeyClock S w e (step S addr w e).outward := by
  obtain ⟨us, hus⟩ := step_shows S addr w e
  generalize (step S addr w e).outward = b at hus
  cases hus with
  | idle hc hr =>
    cases e <;> exact ⟨rfl, .inl rfl, fun h => absurd rfl h, fun _ h => absurd rfl h⟩
  | refused he _ | opened he =>
    subst he
    exact ⟨rfl, .inl rfl, fun h => absurd rfl h, fun _ h => absurd rfl h⟩
  | @heard env ctrl _ _ _ he _ hs =>
    subst he
    have hnoted : ((w.outward.at env).noted ctrl).now = env.now ∧
        ((w.outward.at env).noted ctrl).lastRekeyAt = w.sess.lastRekeyAt ∧
        ((w.outward.at env).noted ctrl).said = w.outward.said := by
      unfold Outward.noted
      split <;> dsimp only
      · split <;> exact ⟨rfl, rfl, rfl⟩
      · exact ⟨rfl, rfl, rfl⟩
    exact hs.clock rfl nofun hnoted.1 hnoted.2.1 hnoted.2.2
  | @sealed env he keyId pid ct =>
    have hnone : ∀ env, e ≠ .rekey env := by rcases he with ⟨_, rfl⟩ | rfl <;> exact nofun
    have henv : e.env? = some env := by rcases he with ⟨_, rfl⟩ | rfl <;> rfl
    refine ⟨by rw [henv]; rfl, .inl rfl, fun h => absurd (rekeyeds_snoc _ _) h,
      fun ⟨env, h⟩ => absurd h (hnone env)⟩
  | @requested env _ _ he _ _ hdue hs =>
    subst he
    obtain ⟨hb, hcase⟩ := hs.rekeyClock
    -- the timer stamps the session before it sends
    have hlast : b.lastRekeyAt = b.now := by
      rcases hcase with ⟨-, h⟩ | h <;> exact h.trans hb.symm
    exact ⟨hb, .inr hlast, fun _ => hlast, fun _ _ => ⟨hlast, by rw [hb]; exact hdue⟩⟩
  | @resent env _ _ he _ hr =>
    subst he
    obtain ⟨hb, hn, hl⟩ := hr.rekeyClock
    exact ⟨hb, .inl hl, fun h => absurd hn h, nofun⟩
  | @restarted env _ _ he hs =>
    subst he
    exact hs.clock rfl nofun rfl rfl rfl

/-! ### Runs -/

/-- The marks of a run so far: none is later than the last one, which is the rekey clock, and a
request of the server comes an interval after everything before it. -/
structure Spread (S : VpnServer Conn) (start : ℕ) (w : World Conn) (ms : List (Bool × ℕ)) :
    Prop where
  begun : start ≤ w.sess.lastRekeyAt
  last : ∀ m ∈ ms, m.2 ≤ w.sess.lastRekeyAt
  now : w.sess.lastRekeyAt ≤ w.env.now
  spaced : ((false, start) :: ms).Pairwise fun m m' => m'.1 = true → m.2 + S.renegInterval ≤ m'.2

lemma rekeyMark_eq_nil_or (S : VpnServer Conn) (addr : SocketAddr) (w : World Conn)
    (e : Event Conn) : rekeyMark S addr w e = [] ∨ ∃ m, rekeyMark S addr w e = [m] := by
  unfold rekeyMark
  dsimp only
  split <;> split <;> simp

lemma Spread.step {start : ℕ} {ms : List (Bool × ℕ)} {addr : SocketAddr} {e : Event Conn}
    (h : Spread S start w ms) (ht : e.InTime w) :
    Spread S start (step S addr w e) (ms ++ rekeyMark S addr w e) := by
  have hclock := rekeyClock_step S addr w e
  obtain ⟨v, hv⟩ : ∃ v, v = Javs.step S addr w e := ⟨_, rfl⟩
  rw [← hv] at hclock ⊢
  have hlater : w.env.now ≤ v.env.now := by
    have hnow : v.env.now = _ := hclock.now
    rw [hnow]
    rcases henv : e.env? with _ | env
    · exact le_rfl
    · exact ht env henv
  have hlast : v.sess.lastRekeyAt = w.sess.lastRekeyAt ∨ v.sess.lastRekeyAt = v.env.now :=
    hclock.last
  have hold := h.now
  have hbegun := h.begun
  have hmono : w.sess.lastRekeyAt ≤ v.sess.lastRekeyAt := by omega
  have hms : ∀ m ∈ ms, m.2 ≤ v.sess.lastRekeyAt := fun m hm => (h.last m hm).trans hmono
  rcases rekeyMark_eq_nil_or S addr w e with hnil | ⟨m, hm⟩
  · rw [hnil, List.append_nil]
    exact ⟨by omega, hms, by omega, h.spaced⟩
  · -- the event leaves a mark: the clock stands at its time
    obtain ⟨htime, hcase⟩ := of_mem_rekeyMark (hm ▸ List.mem_singleton_self m)
    rw [← hv] at htime hcase
    have hmark : v.sess.lastRekeyAt = v.env.now ∧
        (m.1 = true → S.renegInterval ≤ v.env.now - w.sess.lastRekeyAt) := by
      rcases hcase with ⟨-, he, hne⟩ | ⟨hf, hne⟩
      · exact ⟨(hclock.requested he hne).1, fun _ => (hclock.requested he hne).2⟩
      · exact ⟨hclock.completed hne, fun ht => by rw [hf] at ht; cases ht⟩
    have htime' : m.2 = v.env.now := htime
    rw [hm]
    refine ⟨by omega, fun m' hm' => ?_, hmark.1.le, ?_⟩
    · rcases List.mem_append.mp hm' with hm' | hm'
      · exact hms m' hm'
      · rw [List.mem_singleton.mp hm', htime', hmark.1]
    · rw [← List.cons_append, List.pairwise_append]
      refine ⟨h.spaced, List.pairwise_singleton _ _, fun m' hm' m'' hm'' hreq => ?_⟩
      obtain rfl := List.mem_singleton.mp hm''
      have hdue := hmark.2 hreq
      have hbefore : m'.2 ≤ w.sess.lastRekeyAt := by
        rcases List.mem_cons.mp hm' with rfl | hm'
        · exact hbegun
        · exact h.last m' hm'
      rw [htime']
      omega

/-- **Requests of the server are an interval apart.** In every run whose clock does not go back,
the server asks for a rekey only when the renegotiation interval has passed since the session
began, since each of its earlier requests, and since each rekey that has completed, whoever asked
for it. -/
theorem rekeys_spaced (S : VpnServer Conn) (addr : SocketAddr) (o : Opening Conn)
    (es : List (Event Conn))
    (htime : AllMeet (step S addr) (fun w e => e.InTime w) (started S o) es) :
    ((false, o.env.now) :: rekeyMarks S addr (started S o) es).Pairwise fun m m' =>
      m'.1 = true → m.2 + S.renegInterval ≤ m'.2 := by
  have hstart : Spread S o.env.now (started S o) [] := by
    obtain ⟨us, hus⟩ := started_speaks S o
    obtain ⟨hnow, hcase⟩ := hus.rekeyClock
    have hlast : (started S o).sess.lastRekeyAt = o.env.now := by
      rcases hcase with ⟨-, h⟩ | h <;> exact h
    have hnow' : (started S o).env.now = o.env.now := hnow
    exact ⟨hlast.ge, nofun, by omega, List.pairwise_singleton _ _⟩
  have hrun : Spread S o.env.now (run (step S addr) (started S o) es)
      (rekeyMarks S addr (started S o) es) := by
    induction es using List.reverseRecOn with
    | nil => exact hstart
    | append_singleton es e ih =>
      obtain ⟨hes, he⟩ := allMeet_append.mp htime
      rw [allMeet_cons] at he
      have hmarks : rekeyMarks S addr (started S o) (es ++ [e]) =
          rekeyMarks S addr (started S o) es ++
            rekeyMark S addr (run (step S addr) (started S o) es) e := by
        simp [rekeyMarks, trace_append]
      rw [hmarks, run_append]
      exact (ih hes).step he.1
  exact hrun.spaced

/-- An established session an hour after it began: the server asks for a rekey. -/
theorem rekeys_spaced_due :
    let es := [establishing, .rekey { plainEnv 1 with now := 3600000 }]
    rekeyMarks plainServer plainAddr (started plainServer plainOpening) es = [(true, 3600000)] ∧
      ((false, 0) :: rekeyMarks plainServer plainAddr (started plainServer plainOpening)
        es).Pairwise fun m m' => m'.1 = true → m.2 + plainServer.renegInterval ≤ m'.2 := by
  have hfacts :
      rekeyMarks plainServer plainAddr (started plainServer plainOpening)
        [establishing, .rekey { plainEnv 1 with now := 3600000 }] = [(true, 3600000)] ∧
      AllMeet (step plainServer plainAddr) (fun w e => e.InTime w)
        (started plainServer plainOpening)
        [establishing, .rekey { plainEnv 1 with now := 3600000 }] := by
    decide +kernel
  exact ⟨hfacts.1, rekeys_spaced plainServer plainAddr plainOpening _ hfacts.2⟩

end Javs
