import Mathlib.Data.List.Induction
import Javs.Session
import Javs.Lib.Run

/-!
The retransmit queue over whole sequences of calls.

Every entry of the queue goes its own way: an acknowledgement takes it out, a scan returns it if
its backoff is over, and takes it out if it has been transmitted often enough. So the queue after
a call is the queue before it, entry by entry, followed by the entry that was recorded; what
holds of one packet through all calls is proved about its entry alone.
-/

namespace Javs

open Lib

inductive QueueCall
  | recordSent (packetId : UInt32) (encoded : Bytes) (now : ℕ)
  | processAcks (acks : List UInt32)
  | staleUnacked (now baseRto : ℕ)

structure Resent where
  packetId : UInt32
  bytes : Bytes
  time : ℕ
  baseRto : ℕ

namespace QueueCall

/-- The entry that a call puts into the queue. -/
def entries : QueueCall → List Unacked
  | .recordSent p b now => [⟨p, b, now, 1⟩]
  | _ => []

def times : QueueCall → List ℕ
  | .recordSent _ _ now => [now]
  | .processAcks _ => []
  | .staleUnacked now _ => [now]

/-- What a call leaves of an entry. -/
def keep : QueueCall → Unacked → Option Unacked
  | .recordSent .., u => some u
  | .processAcks acks, u => if acks.contains u.packetId then none else some u
  | .staleUnacked now baseRto, u =>
    if u.attempts < controlMaxAttempts then some (Session.staleEntry now baseRto u).1 else none

/-- What a call returns for an entry. -/
def resend : QueueCall → Unacked → Option Resent
  | .staleUnacked now baseRto, u =>
    if u.attempts < controlMaxAttempts then
      (Session.staleEntry now baseRto u).2.map fun b => ⟨u.packetId, b, now, baseRto⟩
    else none
  | _, _ => none

end QueueCall

variable {Conn : Type}

namespace Session

def call (s : Session Conn) : QueueCall → Session Conn
  | .recordSent p b now => s.recordSent p b now
  | .processAcks acks => s.processAcks acks
  | .staleUnacked now baseRto => (s.staleUnacked now baseRto).1

/-- What a call returns, with the packets it belongs to. -/
def resent (s : Session Conn) (c : QueueCall) : List Resent := s.unacked.filterMap c.resend

lemma staleUnacked_resent (s : Session Conn) (now baseRto : ℕ) :
    (s.staleUnacked now baseRto).2 =
      (s.resent (.staleUnacked now baseRto)).map Resent.bytes := by
  unfold staleUnacked resent
  dsimp only
  rw [List.filterMap_map, List.filterMap_filter, List.map_filterMap]
  refine List.filterMap_congr fun u _ => ?_
  by_cases h : u.attempts < controlMaxAttempts <;>
    simp [QueueCall.resend, h, Option.map_map, Function.comp_def]

/-- **Entry by entry.** -/
lemma call_unacked (s : Session Conn) (c : QueueCall) :
    (s.call c).unacked = s.unacked.filterMap c.keep ++ c.entries := by
  cases c with
  | recordSent p b now => exact congrArg (· ++ _) List.filterMap_some.symm
  | processAcks acks =>
    have hfilter : s.unacked.filter (fun u => !acks.contains u.packetId) =
        s.unacked.filterMap (QueueCall.processAcks acks).keep := by
      rw [← List.filterMap_eq_filter]
      refine List.filterMap_congr fun u _ => ?_
      by_cases h : u.packetId ∈ acks <;> simp [QueueCall.keep, Option.guard, h]
    dsimp only [QueueCall.entries, call, processAcks]
    rw [List.append_nil, ← hfilter]
    rcases acks with _ | ⟨a, acks⟩
    · simp
    · rfl
  | staleUnacked now baseRto =>
    dsimp only [QueueCall.entries, call, staleUnacked]
    rw [List.append_nil, List.map_map, ← List.filterMap_eq_map, List.filterMap_filter]
    refine List.filterMap_congr fun u _ => ?_
    by_cases h : u.attempts < controlMaxAttempts <;> simp [QueueCall.keep, h]

end Session

namespace QueueCall

lemma keep_cases (c : QueueCall) (u : Unacked) :
    (c.keep u = none ∧ c.resend u = none ∧
      ((∃ acks, c = .processAcks acks ∧ u.packetId ∈ acks) ∨ controlMaxAttempts ≤ u.attempts)) ∨
    (c.keep u = some u ∧ c.resend u = none) ∨
    ∃ now baseRto, c = .staleUnacked now baseRto ∧ u.attempts < controlMaxAttempts ∧
      baseRto * 2 ^ min (u.attempts - 1) 5 ≤ now - u.sentAt ∧
      c.keep u = some { u with sentAt := now, attempts := u.attempts + 1 } ∧
      c.resend u = some ⟨u.packetId, u.encoded, now, baseRto⟩ := by
  cases c with
  | recordSent p b now => exact .inr (.inl ⟨rfl, rfl⟩)
  | processAcks acks =>
    by_cases h : u.packetId ∈ acks
    · exact .inl ⟨by simp [keep, h], rfl, .inl ⟨acks, rfl, h⟩⟩
    · exact .inr (.inl ⟨by simp [keep, h], rfl⟩)
  | staleUnacked now baseRto =>
    by_cases h : u.attempts < controlMaxAttempts
    swap
    · exact .inl ⟨if_neg h, if_neg h, .inr (Nat.le_of_not_lt h)⟩
    -- the attempt count stays below its bound, so that it never saturates
    have hsat : min (u.attempts + 1) (2 ^ 32 - 1) = u.attempts + 1 := by
      unfold controlMaxAttempts at h
      omega
    dsimp only [keep, resend]
    rw [if_pos h, if_pos h]
    by_cases hdue : now - u.sentAt ≥ baseRto * 2 ^ min (u.attempts - 1) 5
    · refine .inr (.inr ⟨now, baseRto, rfl, h, hdue, ?_, ?_⟩)
      · simp only [Session.staleEntry, if_pos hdue, hsat]
      · simp only [Session.staleEntry, if_pos hdue, Option.map_some]
    · refine .inr (.inl ⟨?_, ?_⟩)
      · simp only [Session.staleEntry, if_neg hdue]
      · simp only [Session.staleEntry, if_neg hdue, Option.map_none]

lemma packetId_keep {c : QueueCall} {u v : Unacked} (h : c.keep u = some v) :
    v.packetId = u.packetId := by
  rcases c.keep_cases u with ⟨hk, -⟩ | ⟨hk, -⟩ | ⟨_, _, -, -, -, hk, -⟩ <;> rw [hk] at h <;>
    cases h <;> rfl

lemma packetId_resend {c : QueueCall} {u : Unacked} {x : Resent} (h : c.resend u = some x) :
    x.packetId = u.packetId := by
  rcases c.keep_cases u with ⟨-, hr, -⟩ | ⟨-, hr⟩ | ⟨_, _, -, -, -, -, hr⟩ <;> rw [hr] at h <;>
    cases h
  rfl

end QueueCall

/-! ### The order of the queue -/

def recorded (calls : List QueueCall) : List Unacked := calls.flatMap QueueCall.entries

def returned (s : Session Conn) (calls : List QueueCall) : List Resent :=
  (trace Session.call s calls).flatMap fun x => x.1.resent x.2

lemma returned_append (s : Session Conn) (cs ds : List QueueCall) :
    returned s (cs ++ ds) = returned s cs ++ returned (run Session.call s cs) ds := by
  rw [returned, trace_append, List.flatMap_append]
  rfl

lemma returned_singleton (s : Session Conn) (c : QueueCall) : returned s [c] = s.resent c :=
  List.append_nil _

lemma map_filterMap_sublist {α β κ : Type} {f : α → Option β} {k : α → κ} {k' : β → κ}
    (h : ∀ a b, f a = some b → k' b = k a) (l : List α) :
    ((l.filterMap f).map k').Sublist (l.map k) := by
  induction l with
  | nil => exact .slnil
  | cons a l ih =>
    rcases hf : f a with _ | b
    · rw [List.filterMap_cons_none hf]
      exact ih.cons _
    · rw [List.filterMap_cons_some hf, List.map_cons, List.map_cons, h a b hf]
      exact ih.cons_cons _

lemma unacked_sublist {s : Session Conn} (hs : s.unacked = []) (calls : List QueueCall) :
    ((run Session.call s calls).unacked.map Unacked.packetId).Sublist
      ((recorded calls).map Unacked.packetId) := by
  induction calls using List.reverseRecOn with
  | nil => simp [hs]
  | append_singleton cs c ih =>
    rw [run_append, recorded, List.flatMap_append, List.map_append, run_cons, run_nil,
      Session.call_unacked, List.map_append]
    refine List.Sublist.append ?_ (by simp)
    exact (map_filterMap_sublist (fun _ _ => QueueCall.packetId_keep) _).trans ih

lemma resent_sublist (s : Session Conn) (c : QueueCall) :
    ((s.resent c).map Resent.packetId).Sublist (s.unacked.map Unacked.packetId) :=
  map_filterMap_sublist (fun _ _ => QueueCall.packetId_resend) _

/-! ### The life of one packet -/

/-- The time of the last transmission of a packet that was recorded at `t` and returned as `xs`. -/
def lastTime (t : ℕ) (xs : List Resent) : ℕ := (xs.getLast?.map Resent.time).getD t

/-- Each of the packets returned comes at least its base timeout, doubled for every one before it,
after the one before it; the first of them is the `k`-th, and comes after the time `t`. -/
def Spaced (t k : ℕ) : List Resent → Prop
  | [] => True
  | x :: xs => t + x.baseRto * 2 ^ k ≤ x.time ∧ Spaced x.time (k + 1) xs

lemma lastTime_cons (t : ℕ) (x : Resent) (xs : List Resent) :
    lastTime t (x :: xs) = lastTime x.time xs := by
  rcases xs with _ | ⟨y, ys⟩
  · rfl
  · rw [lastTime, List.getLast?_cons_cons, lastTime]
    rcases h : (y :: ys).getLast? with _ | z
    · simp at h
    · rfl

lemma lastTime_snoc (t : ℕ) (xs : List Resent) (x : Resent) : lastTime t (xs ++ [x]) = x.time := by
  simp [lastTime]

lemma spaced_snoc {t k : ℕ} {xs : List Resent} {x : Resent} (h : Spaced t k xs)
    (hx : lastTime t xs + x.baseRto * 2 ^ (k + xs.length) ≤ x.time) : Spaced t k (xs ++ [x]) := by
  induction xs generalizing t k with
  | nil => exact ⟨hx, trivial⟩
  | cons y ys ih =>
    have hk : k + (y :: ys).length = k + 1 + ys.length := by
      rw [List.length_cons]
      omega
    rw [lastTime_cons, hk] at hx
    exact ⟨h.1, ih h.2 hx⟩

/-- The packet was acknowledged by one of the calls, after it had been recorded. -/
def Acked (calls : List QueueCall) (r : Unacked) : Prop :=
  ∃ fs acks gs, calls = fs ++ .processAcks acks :: gs ∧ r ∈ recorded fs ∧ r.packetId ∈ acks

/-- How a recorded packet `r` has fared once it was returned as `xs`, with `q` the entries for it
in the queue. -/
structure Life (calls : List QueueCall) (r : Unacked) (xs : List Resent) (q : List Unacked) :
    Prop where
  bytes : ∀ x ∈ xs, x.bytes = r.encoded
  spaced : Spaced r.sentAt 0 xs
  le : xs.length + 1 ≤ controlMaxAttempts
  entry : ∀ u ∈ q, q = [u] ∧ u.encoded = r.encoded ∧ u.attempts = xs.length + 1 ∧
    u.sentAt = lastTime r.sentAt xs
  kept : q = [] → Acked calls r ∨ xs.length + 1 = controlMaxAttempts

section Life

variable {calls : List QueueCall} {r : Unacked} {xs : List Resent} {q : List Unacked}

lemma Acked.snoc (h : Acked calls r) (c : QueueCall) : Acked (calls ++ [c]) r := by
  obtain ⟨fs, acks, gs, rfl, hr, ha⟩ := h
  exact ⟨fs, acks, gs ++ [c], by simp, hr, ha⟩

lemma Life.call (h : Life calls r xs q) (hr : r ∈ recorded calls)
    (hq : ∀ u ∈ q, u.packetId = r.packetId) (c : QueueCall)
    (htime : ∀ now ∈ c.times, lastTime r.sentAt xs ≤ now) :
    Life (calls ++ [c]) r (xs ++ q.filterMap c.resend) (q.filterMap c.keep) := by
  -- no entry: the packet is gone, and stays gone
  rcases q with _ | ⟨u, q⟩
  · refine ⟨?_, ?_, ?_, ?_, fun hq => ?_⟩
    all_goals simp only [List.filterMap_nil, List.append_nil]
    · exact h.bytes
    · exact h.spaced
    · exact h.le
    · simp
    · exact (h.kept rfl).imp_left fun ha => ha.snoc c
  obtain ⟨hu, henc, hatt, hsent⟩ := h.entry u List.mem_cons_self
  rw [hu] at hq ⊢
  have hid := hq u List.mem_cons_self
  rcases c.keep_cases u with
    ⟨hk, hres, hout⟩ | ⟨hk, hres⟩ | ⟨now, baseRto, rfl, hlt, hdue, hk, hres⟩
  · rw [List.filterMap_cons_none hk, List.filterMap_cons_none hres, List.filterMap_nil,
      List.filterMap_nil, List.append_nil]
    refine ⟨h.bytes, h.spaced, h.le, by simp, fun _ => ?_⟩
    rcases hout with ⟨acks, rfl, ha⟩ | hge
    · exact .inl ⟨calls, acks, [], rfl, hr, hid ▸ ha⟩
    · exact .inr (Nat.le_antisymm h.le (hatt ▸ hge))
  · rw [List.filterMap_cons_some hk, List.filterMap_cons_none hres, List.filterMap_nil,
      List.filterMap_nil, List.append_nil]
    exact ⟨h.bytes, h.spaced, h.le, fun v hv => by
      rw [List.mem_singleton.mp hv]; exact ⟨rfl, henc, hatt, hsent⟩, fun hnil => by cases hnil⟩
  · rw [List.filterMap_cons_some hk, List.filterMap_cons_some hres, List.filterMap_nil,
      List.filterMap_nil]
    rw [hatt] at hlt hdue
    refine ⟨fun x hx => ?_, spaced_snoc h.spaced ?_, ?_, fun v hv => ?_, fun hnil => by cases hnil⟩
    · rcases List.mem_append.mp hx with hx | hx
      · exact h.bytes x hx
      · rw [List.mem_singleton.mp hx, henc]
    -- the delay doubles with each resend; the cap at 5 is not reached before the last attempt
    · have hshift : min (xs.length + 1 - 1) 5 = 0 + xs.length := by
        unfold controlMaxAttempts at hlt
        omega
      have hmono := htime now List.mem_cons_self
      rw [hshift, hsent] at hdue
      dsimp only
      omega
    · rw [List.length_append, List.length_singleton]
      exact hlt
    · rw [List.mem_singleton.mp hv, lastTime_snoc, List.length_append, List.length_singleton, hatt]
      exact ⟨rfl, henc, rfl, rfl⟩

end Life

/-! ### From the calls to the packets -/

section Packets

variable {s : Session Conn} {p : UInt32}

def Session.entriesFor (s : Session Conn) (p : UInt32) : List Unacked :=
  s.unacked.filter fun u => u.packetId = p

def returnedFor (p : UInt32) (s : Session Conn) (calls : List QueueCall) : List Resent :=
  (returned s calls).filter fun x => x.packetId = p

lemma filter_filterMap_key {α β κ : Type} [DecidableEq κ] {f : α → Option β} {k : α → κ}
    {k' : β → κ} (h : ∀ a b, f a = some b → k' b = k a) (l : List α) (p : κ) :
    (l.filterMap f).filter (fun b => k' b = p) = (l.filter fun a => k a = p).filterMap f := by
  induction l with
  | nil => rfl
  | cons a l ih =>
    rcases hf : f a with _ | b
    · by_cases hp : k a = p <;> simp [hf, hp, ih]
    · by_cases hp : k a = p <;> simp [hf, hp, ih, h a b hf]

lemma entriesFor_call (s : Session Conn) (c : QueueCall) (p : UInt32) :
    (s.call c).entriesFor p =
      (s.entriesFor p).filterMap c.keep ++ c.entries.filter fun u => u.packetId = p := by
  rw [Session.entriesFor, Session.call_unacked, List.filter_append,
    filter_filterMap_key fun _ _ => QueueCall.packetId_keep]
  rfl

lemma returnedFor_snoc (p : UInt32) (s : Session Conn) (cs : List QueueCall) (c : QueueCall) :
    returnedFor p s (cs ++ [c]) =
      returnedFor p s cs ++ ((run Session.call s cs).entriesFor p).filterMap c.resend := by
  rw [returnedFor, returned_append, List.filter_append, returned_singleton, Session.resent,
    filter_filterMap_key fun _ _ => QueueCall.packetId_resend]
  rfl

lemma filter_entries {c : QueueCall} (h : p ∉ c.entries.map Unacked.packetId) :
    c.entries.filter (fun u => u.packetId = p) = [] := by
  refine List.filter_eq_nil_iff.mpr fun u hu hp => h ?_
  exact List.mem_map.mpr ⟨u, hu, of_decide_eq_true hp⟩

lemma absent (hs : s.entriesFor p = []) {calls : List QueueCall}
    (hp : p ∉ (recorded calls).map Unacked.packetId) :
    (run Session.call s calls).entriesFor p = [] ∧ returnedFor p s calls = [] := by
  induction calls using List.reverseRecOn with
  | nil => exact ⟨hs, rfl⟩
  | append_singleton cs c ih =>
    rw [recorded, List.flatMap_append, List.map_append, List.mem_append, not_or,
      List.flatMap_singleton] at hp
    obtain ⟨he, hr⟩ := ih hp.1
    rw [run_append, run_cons, run_nil, entriesFor_call, returnedFor_snoc, he, hr,
      filter_entries hp.2]
    exact ⟨rfl, rfl⟩

lemma time_of_resent {c : QueueCall} {x : Resent} (h : x ∈ s.resent c) : x.time ∈ c.times := by
  obtain ⟨u, -, hu⟩ := List.mem_filterMap.mp h
  rcases c.keep_cases u with ⟨-, hr, -⟩ | ⟨-, hr⟩ | ⟨now, _, rfl, -, -, -, hr⟩ <;> rw [hr] at hu <;>
    cases hu
  exact List.mem_cons_self

lemma time_of_returned {cs : List QueueCall} {x : Resent} (h : x ∈ returned s cs) :
    x.time ∈ cs.flatMap QueueCall.times := by
  obtain ⟨⟨v, c⟩, hc, hx⟩ := List.mem_flatMap.mp h
  exact List.mem_flatMap.mpr ⟨c, mem_of_mem_trace Session.call hc, time_of_resent hx⟩

lemma time_of_recorded {cs : List QueueCall} {r : Unacked} (h : r ∈ recorded cs) :
    r.sentAt ∈ cs.flatMap QueueCall.times ∧ r.attempts = 1 := by
  obtain ⟨c, hc, hr⟩ := List.mem_flatMap.mp h
  cases c with
  | recordSent p b now =>
    rw [List.mem_singleton.mp hr]
    exact ⟨List.mem_flatMap.mpr ⟨_, hc, List.mem_cons_self⟩, rfl⟩
  | _ => cases hr

lemma lastTime_mem {cs : List QueueCall} {r : Unacked} (hr : r ∈ recorded cs) :
    lastTime r.sentAt (returnedFor p s cs) ∈ cs.flatMap QueueCall.times := by
  unfold lastTime
  rcases hx : (returnedFor p s cs).getLast? with _ | x
  · exact (time_of_recorded hr).1
  · exact time_of_returned (List.mem_filter.mp (List.mem_of_getLast? hx)).1

/-- **The life of every packet.** -/
lemma life_recorded (hs : s.unacked = []) {calls : List QueueCall}
    (hids : ((recorded calls).map Unacked.packetId).Nodup)
    (htimes : (calls.flatMap QueueCall.times).Pairwise (· ≤ ·)) {r : Unacked}
    (hr : r ∈ recorded calls) :
    Life calls r (returnedFor r.packetId s calls)
      ((run Session.call s calls).entriesFor r.packetId) := by
  induction calls using List.reverseRecOn with
  | nil => cases hr
  | append_singleton cs c ih =>
    have hsplit : recorded (cs ++ [c]) = recorded cs ++ c.entries := by
      rw [recorded, List.flatMap_append, List.flatMap_singleton]
      rfl
    rw [hsplit, List.map_append, List.nodup_append] at hids
    rw [List.flatMap_append, List.flatMap_singleton, List.pairwise_append] at htimes
    rw [hsplit, List.mem_append] at hr
    rw [run_append, run_cons, run_nil, entriesFor_call, returnedFor_snoc]
    rcases hr with hr | hr
    · -- recorded before: the call does not record it again
      have hnew : r.packetId ∉ c.entries.map Unacked.packetId := fun hp =>
        hids.2.2 _ (List.mem_map_of_mem hr) _ hp rfl
      rw [filter_entries hnew, List.append_nil]
      refine (ih hids.1 htimes.1 hr).call hr (fun u hu => ?_) c fun now hnow => ?_
      · exact of_decide_eq_true (List.mem_filter.mp hu).2
      · exact htimes.2.2 _ (lastTime_mem hr) _ hnow
    · -- recorded by this call: it was not there before
      have hold : r.packetId ∉ (recorded cs).map Unacked.packetId := fun hp =>
        hids.2.2 _ hp _ (List.mem_map_of_mem hr) rfl
      obtain ⟨he, hx⟩ := absent (s := s) (by rw [Session.entriesFor, hs]; rfl) hold
      rw [he, hx]
      cases c with
      | recordSent p b now =>
        rw [List.mem_singleton.mp hr]
        have hfilter : [(⟨p, b, now, 1⟩ : Unacked)].filter (fun u => u.packetId = p) =
            [⟨p, b, now, 1⟩] := by simp
        rw [QueueCall.entries, hfilter]
        refine ⟨fun _ hx => absurd hx List.not_mem_nil, trivial, by simp [controlMaxAttempts],
          fun u hu => ?_, fun hnil => by cases hnil⟩
        rw [List.mem_singleton.mp hu]
        exact ⟨rfl, rfl, rfl, rfl⟩
      | _ => cases hr

end Packets

/-- **Retransmissions keep to the rules.** Over all sequences of calls with distinct packet ids
at times that do not decrease: the queue and every batch returned are in the order of recording;
a packet is returned unchanged, at most 5 times, the `k`-th time after `2 ^ (k - 1)` base timeouts
since its last transmission, and never after it was acknowledged; and it is in the queue until it
is acknowledged or has been transmitted 6 times. -/
theorem retransmissions_lawful (s : Session Conn) (hs : s.unacked = []) (calls : List QueueCall)
    (hids : ((recorded calls).map Unacked.packetId).Nodup)
    (htimes : (calls.flatMap QueueCall.times).Pairwise (· ≤ ·)) :
    let s' := run Session.call s calls
    (s'.unacked.map Unacked.packetId).Sublist ((recorded calls).map Unacked.packetId) ∧
    (∀ now baseRto, (s'.staleUnacked now baseRto).2 =
        (s'.resent (.staleUnacked now baseRto)).map Resent.bytes ∧
      ((s'.resent (.staleUnacked now baseRto)).map Resent.packetId).Sublist
        ((recorded calls).map Unacked.packetId)) ∧
    ∀ r ∈ recorded calls,
      (∀ x ∈ returnedFor r.packetId s calls, x.bytes = r.encoded) ∧
      (returnedFor r.packetId s calls).length ≤ 5 ∧
      Spaced r.sentAt 0 (returnedFor r.packetId s calls) ∧
      (∀ fs acks gs, calls = fs ++ .processAcks acks :: gs → r ∈ recorded fs → r.packetId ∈ acks →
        returnedFor r.packetId (run Session.call s (fs ++ [.processAcks acks])) gs = []) ∧
      (r.packetId ∉ s'.unacked.map Unacked.packetId →
        Acked calls r ∨ (returnedFor r.packetId s calls).length = 5) := by
  intro s'
  have hqueue := unacked_sublist hs calls
  refine ⟨hqueue, fun now baseRto => ⟨s'.staleUnacked_resent now baseRto,
    (resent_sublist s' _).trans hqueue⟩, fun r hr => ?_⟩
  have hlife := life_recorded (s := s) hs hids htimes hr
  refine ⟨hlife.bytes, Nat.le_of_succ_le_succ hlife.le, hlife.spaced, ?_, fun hgone => ?_⟩
  · rintro fs acks gs rfl hrf hack
    have hlater : r.packetId ∉ (recorded gs).map Unacked.packetId := fun hp => by
      rw [recorded, List.flatMap_append, List.map_append, List.nodup_append] at hids
      exact hids.2.2 _ (List.mem_map_of_mem hrf) _ hp rfl
    refine (absent ?_ hlater).2
    rw [run_append, run_cons, run_nil, entriesFor_call]
    refine List.append_eq_nil_iff.mpr ⟨List.filterMap_eq_nil_iff.mpr fun u hu => ?_, rfl⟩
    have hid : u.packetId = r.packetId := of_decide_eq_true (List.mem_filter.mp hu).2
    exact if_pos (List.contains_iff_mem.mpr (hid ▸ hack))
  · refine (hlife.kept (List.filter_eq_nil_iff.mpr fun u hu hp => hgone ?_)).imp_right
      Nat.succ.inj
    exact List.mem_map.mpr ⟨u, hu, of_decide_eq_true hp⟩

/-- A packet that is never acknowledged, with a scan every two seconds. -/
theorem retransmissions_lawful_unacked :
    let s : Session Unit := .new 7 (.new ()) 1 (.tcp 0) [] [] 0
    let calls : List QueueCall := .recordSent 1 [9] 0 ::
      (List.range 40).map fun i => .staleUnacked (2000 * i) controlBaseRto
    (returnedFor 1 s calls).map Resent.time = [2000, 6000, 14000, 30000, 62000] ∧
      ∀ x ∈ returnedFor 1 s calls, x.bytes = [9] := by
  intro s calls
  refine ⟨by decide +kernel, ?_⟩
  have h := retransmissions_lawful s rfl calls (by decide +kernel) (by decide +kernel)
  exact (h.2.2 ⟨1, [9], 0, 1⟩ List.mem_cons_self).1

end Javs
