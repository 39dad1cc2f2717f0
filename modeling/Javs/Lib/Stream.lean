import Mathlib.Data.List.Basic
import Mathlib.Tactic.Lemma

/-!
Streams that arrive in pieces.

A reader takes what it asks for from a source that delivers its stream in reads of any size.
A consumer takes messages off the front of a buffer that grows piece by piece. In both cases
what comes out is a function of the stream, wherever it was cut.
-/

namespace Javs.Lib

variable {α σ : Type}

/-! ### Exact reads -/

/-- A stream under way: what was received and is not taken yet, and the reads to come. -/
structure Source (α : Type) where
  buf : List α
  reads : List (List α)

namespace Source

def rest (r : Source α) : List α := r.buf ++ r.reads.flatten

/-- Exactly `n` elements, by as many reads as it takes; `none` if the stream ends before. A
read that delivers nothing is its end. -/
def readExactFrom (n : ℕ) : List α → List (List α) → Option (List α × Source α)
  | buf, [] => if n ≤ buf.length then some (buf.take n, ⟨buf.drop n, []⟩) else none
  | buf, piece :: reads =>
    if n ≤ buf.length then some (buf.take n, ⟨buf.drop n, piece :: reads⟩)
    else if piece.isEmpty then none
    else readExactFrom n (buf ++ piece) reads

def readExact (n : ℕ) (r : Source α) : Option (List α × Source α) := readExactFrom n r.buf r.reads

variable {n : ℕ}

lemma readExactFrom_of_le {buf : List α} {reads : List (List α)} (hr : [] ∉ reads)
    (hn : n ≤ (buf ++ reads.flatten).length) :
    ∃ r, readExactFrom n buf reads = some ((buf ++ reads.flatten).take n, r) ∧
      r.rest = (buf ++ reads.flatten).drop n ∧ [] ∉ r.reads := by
  induction reads generalizing buf with
  | nil =>
    rw [List.flatten_nil, List.append_nil] at hn ⊢
    exact ⟨⟨buf.drop n, []⟩, by rw [readExactFrom, if_pos hn], by simp [rest], by simp⟩
  | cons piece reads ih =>
    by_cases hbuf : n ≤ buf.length
    · refine ⟨⟨buf.drop n, piece :: reads⟩, ?_, ?_, hr⟩
      · rw [readExactFrom, if_pos hbuf, List.take_append_of_le_length hbuf]
      · rw [rest, List.drop_append_of_le_length hbuf]
    · have hpiece : piece ≠ [] := fun h => hr (h ▸ List.mem_cons_self)
      have hreads : [] ∉ reads := fun h => hr (List.mem_cons_of_mem _ h)
      rw [List.flatten_cons, ← List.append_assoc] at hn ⊢
      rw [readExactFrom, if_neg hbuf, if_neg (by simpa using hpiece)]
      exact ih hreads hn

lemma readExactFrom_of_lt {buf : List α} {reads : List (List α)}
    (hn : (buf ++ reads.flatten).length < n) : readExactFrom n buf reads = none := by
  induction reads generalizing buf with
  | nil =>
    rw [List.flatten_nil, List.append_nil] at hn
    rw [readExactFrom, if_neg (by omega)]
  | cons piece reads ih =>
    rw [List.flatten_cons, ← List.append_assoc] at hn
    have hbuf : ¬ n ≤ buf.length := by
      rw [List.length_append, List.length_append] at hn
      omega
    rw [readExactFrom, if_neg hbuf, ih hn, ite_self]

lemma readExact_of_le {r : Source α} (hr : [] ∉ r.reads) (hn : n ≤ r.rest.length) :
    ∃ r', r.readExact n = some (r.rest.take n, r') ∧ r'.rest = r.rest.drop n ∧ [] ∉ r'.reads :=
  readExactFrom_of_le hr hn

lemma readExact_of_lt {r : Source α} (hn : r.rest.length < n) : r.readExact n = none :=
  readExactFrom_of_lt hn

end Source

/-! ### Consumers of a growing buffer -/

/-- In a state, with a buffer before it, a consumer takes some of the buffer's front and goes
into another state, or it waits. -/
def Consumer (σ α : Type) := σ → List α → Option (σ × ℕ)

namespace Consumer

variable (c : Consumer σ α)

/-- What it takes is there, and it takes the same when more follows. -/
structure Steady : Prop where
  pos : ∀ {s b t n}, c s b = some (t, n) → 0 < n
  le : ∀ {s b t n}, c s b = some (t, n) → n ≤ b.length
  extend : ∀ {s b t n}, c s b = some (t, n) → ∀ more, c s (b ++ more) = some (t, n)

def drain : ℕ → σ → List α → σ × List α
  | 0, s, b => (s, b)
  | fuel + 1, s, b =>
    match c s b with
    | none => (s, b)
    | some (t, n) => drain fuel t (b.drop n)

/-- Let it take until it waits. -/
def consume (s : σ) (b : List α) : σ × List α := c.drain b.length s b

variable {c} {s t : σ} {b : List α} {n fuel : ℕ}

lemma drain_of_none (h : c s b = none) : c.drain fuel s b = (s, b) := by
  cases fuel with
  | zero => rfl
  | succ fuel => rw [drain, h]

lemma drain_of_some (h : c s b = some (t, n)) :
    c.drain (fuel + 1) s b = c.drain fuel t (b.drop n) := by
  rw [drain, h]

lemma Steady.shorter (hc : c.Steady) (h : c s b = some (t, n)) : (b.drop n).length < b.length := by
  have hpos := hc.pos h
  have hle := hc.le h
  rw [List.length_drop]
  omega

lemma Steady.drain_eq_drain (hc : c.Steady) {fuel' : ℕ} (hf : b.length ≤ fuel)
    (hf' : b.length ≤ fuel') : c.drain fuel s b = c.drain fuel' s b := by
  induction fuel generalizing fuel' s b with
  | zero =>
    have hwait : c s b = none := by
      rcases h : c s b with _ | ⟨t, n⟩
      · rfl
      · have := hc.shorter h
        omega
    rw [drain_of_none hwait, drain_of_none hwait]
  | succ fuel ih =>
    rcases h : c s b with _ | ⟨t, n⟩
    · rw [drain_of_none h, drain_of_none h]
    · have hlt := hc.shorter h
      cases fuel' with
      | zero => omega
      | succ fuel' =>
        rw [drain_of_some h, drain_of_some h]
        exact ih (by omega) (by omega)

lemma Steady.drain_eq (hc : c.Steady) (hf : b.length ≤ fuel) : c.drain fuel s b = c.consume s b :=
  hc.drain_eq_drain hf (Nat.le_refl _)

lemma consume_of_none (h : c s b = none) : c.consume s b = (s, b) := drain_of_none h

lemma Steady.consume_of_some (hc : c.Steady) (h : c s b = some (t, n)) :
    c.consume s b = c.consume t (b.drop n) := by
  have hlt := hc.shorter h
  rw [← hc.drain_eq (Nat.le_succ b.length), drain_of_some h]
  exact hc.drain_eq (Nat.le_of_lt hlt)

@[simp] lemma consume_nil : c.consume s [] = (s, []) := rfl

/-- **Taking what is there and then what follows is taking both at once.** -/
theorem Steady.consume_append (hc : c.Steady) (s : σ) (b more : List α) :
    c.consume s (b ++ more) = c.consume (c.consume s b).1 ((c.consume s b).2 ++ more) := by
  induction hlen : b.length using Nat.strongRecOn generalizing s b with
  | ind len ih =>
    rcases h : c s b with _ | ⟨t, n⟩
    · rw [consume_of_none h]
    · have hlt := hc.shorter h
      rw [hc.consume_of_some h, hc.consume_of_some (hc.extend h more),
        List.drop_append_of_le_length (hc.le h)]
      exact ih _ (hlen ▸ hlt) t (b.drop n) rfl

/-- **A stream in pieces is consumed like the whole stream.** -/
theorem Steady.consume_pieces (hc : c.Steady) (s : σ) (b : List α) (pieces : List (List α)) :
    pieces.foldl (fun x piece => c.consume x.1 (x.2 ++ piece)) (c.consume s b) =
      c.consume s (b ++ pieces.flatten) := by
  induction pieces generalizing b with
  | nil => simp
  | cons piece pieces ih =>
    rw [List.foldl_cons, ← hc.consume_append, ih, List.flatten_cons, List.append_assoc]

end Consumer

end Javs.Lib
