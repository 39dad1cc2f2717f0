import Mathlib.Data.List.Induction
import Javs.Replay
import Javs.Lib.Run

/-!
The replay window against the set of ids it stands for.

What a window is for can be said without a bitmap: of the ids accepted so far, it refuses those
in the set, and those more than a window's width below the highest one. The window remembers
only the last 64 ids, but that is all the rule ever asks for.
-/

namespace Javs

open Lib

namespace ReplayWindow

def next (w : ReplayWindow) (p : UInt32) : ReplayWindow := (w.checkAndSet p).2

def accepted (ps : List UInt32) : List UInt32 :=
  ((trace next new ps).filter fun x => (x.1.checkAndSet x.2).1).map Prod.snd

lemma accepted_snoc (ps : List UInt32) (p : UInt32) :
    accepted (ps ++ [p]) =
      accepted ps ++ if ((run next new ps).checkAndSet p).1 then [p] else [] := by
  simp only [accepted, trace_append, trace_cons, trace_nil, List.filter_append, List.map_append]
  congr 1
  by_cases h : ((run next new ps).checkAndSet p).1 <;> simp [h]

/-- What the window knows of the ids accepted so far: the highest of them, and which of those
within its width there are. -/
structure Represents (w : ReplayWindow) (seen : List UInt32) : Prop where
  le : ∀ q ∈ seen, q ≤ w.highest
  top : (seen = [] ∧ w.highest = 0) ∨ w.highest ∈ seen
  bit : ∀ q, q ≠ 0 → q ≤ w.highest → w.highest.toNat - q.toNat < 64 →
    (w.bitmap.getLsbD (w.highest.toNat - q.toNat) = true ↔ q ∈ seen)

lemma represents_new : new.Represents [] where
  le := by simp
  top := .inl ⟨rfl, rfl⟩
  bit q h0 hle _ := absurd (UInt32.le_zero_iff.mp hle) h0

section Represents

variable {w : ReplayWindow} {seen : List UInt32} {p q : UInt32}

lemma Represents.barred (h : w.Represents seen) (h0 : p ≠ 0) :
    w.Barred p ↔ p ≤ w.highest ∧ (64 ≤ w.highest.toNat - p.toNat ∨ p ∈ seen) := by
  unfold Barred windowSize
  refine and_congr_right fun hle => ?_
  by_cases hd : 64 ≤ w.highest.toNat - p.toNat
  · simp [hd]
  · rw [h.bit p h0 hle (by omega)]

lemma getLsbD_shifted {b : BitVec 64} {n i : ℕ} (hi : i < 64) :
    (if n ≥ 64 then 1 else (b <<< n) ||| 1).getLsbD i =
      (decide (i = 0) || (decide (n ≤ i) && b.getLsbD (i - n))) := by
  have hone : (1 : BitVec 64).getLsbD i = decide (i = 0) := by simp
  split
  · have hni : ¬ n ≤ i := by omega
    simp [hni]
  · rw [BitVec.getLsbD_or, BitVec.getLsbD_shiftLeft, hone]
    by_cases hni : n ≤ i
    · have hlt : ¬ i < n := by omega
      simp [hi, hni, hlt, Bool.or_comm]
    · have hlt : i < n := by omega
      simp [hni, hlt]

lemma Represents.raised (h : w.Represents seen) (hlt : w.highest < p) :
    Represents ⟨p, if (p - w.highest).toNat ≥ 64 then 1
      else (w.bitmap <<< (p - w.highest).toNat) ||| 1⟩ (seen ++ [p]) where
  le q hq := by
    rcases List.mem_append.mp hq with hq | hq
    · exact UInt32.le_of_lt (UInt32.lt_of_le_of_lt (h.le q hq) hlt)
    · rw [List.mem_singleton.mp hq]
      exact UInt32.le_refl p
  top := .inr (by simp)
  bit q h0 hle hd := by
    have hsub := toNat_sub_of_le (UInt32.le_of_lt hlt)
    have hlt' := UInt32.lt_iff_toNat_lt.mp hlt
    have hle' := UInt32.le_iff_toNat_le.mp hle
    dsimp only at hd hle' ⊢
    rw [getLsbD_shifted hd]
    rcases lt_trichotomy q.toNat p.toNat with hqp | hqp | hqp
    · have hne : q ≠ p := fun e => by rw [e] at hqp; omega
      have hpos : p.toNat - q.toNat ≠ 0 := by omega
      simp only [List.mem_append, List.mem_singleton, hne, or_false, hpos, decide_false,
        Bool.false_or, Bool.and_eq_true, decide_eq_true_eq]
      by_cases hold : q ≤ w.highest
      · have hold' := UInt32.le_iff_toNat_le.mp hold
        have hdist : p.toNat - q.toNat - (p - w.highest).toNat = w.highest.toNat - q.toNat := by
          omega
        rw [hdist, h.bit q h0 hold (by omega)]
        exact and_iff_right (by omega)
      · -- between the old top and the new one nothing has been accepted
        have hnew : w.highest.toNat < q.toNat :=
          UInt32.lt_iff_toNat_lt.mp (UInt32.not_le.mp hold)
        constructor
        · rintro ⟨hshift, -⟩
          omega
        · intro hq
          exact absurd (h.le q hq) hold
    · have heq : q = p := UInt32.toNat_inj.mp hqp
      simp [heq]
    · omega

lemma Represents.filled (h : w.Represents seen) (h0 : p ≠ 0) (hle : p ≤ w.highest)
    (hd : w.highest.toNat - p.toNat < 64) :
    Represents ⟨w.highest, w.bitmap ||| 1#64 <<< (w.highest.toNat - p.toNat)⟩ (seen ++ [p]) where
  le q hq := by
    rcases List.mem_append.mp hq with hq | hq
    · exact h.le q hq
    · rw [List.mem_singleton.mp hq]
      exact hle
  top := by
    rcases h.top with ⟨-, hzero⟩ | htop
    · rw [hzero] at hle
      exact absurd (UInt32.le_zero_iff.mp hle) h0
    · exact .inr (List.mem_append_left _ htop)
  bit q hq0 hqle hqd := by
    have hp' := UInt32.le_iff_toNat_le.mp hle
    have hq' := UInt32.le_iff_toNat_le.mp hqle
    dsimp only at hqd hq' ⊢
    rw [BitVec.getLsbD_or, getLsbD_bit hd, Bool.or_eq_true, h.bit q hq0 hqle hqd,
      decide_eq_true_eq, List.mem_append, List.mem_singleton]
    refine or_congr_right ⟨fun hdist => ?_, fun e => by rw [e]⟩
    exact UInt32.toNat_inj.mp (by omega)

lemma Represents.next (h : w.Represents seen) (p : UInt32) :
    (w.next p).Represents (seen ++ if (w.checkAndSet p).1 then [p] else []) := by
  unfold ReplayWindow.next
  rcases checkAndSet_cases w p with ⟨-, e⟩ | ⟨hlt, e⟩ | ⟨h0, hle, -, hd, e⟩
  · rw [e]
    simpa using h
  · rw [e]
    exact h.raised hlt
  · rw [e]
    exact h.filled h0 hle hd

end Represents

lemma represents_run (ps : List UInt32) : (run next new ps).Represents (accepted ps) := by
  induction ps using List.reverseRecOn with
  | nil => exact represents_new
  | append_singleton ps p ih =>
    rw [run_append, accepted_snoc]
    exact ih.next p

/-- What the set specification asks of an id: not zero, not accepted before, and above the
highest id accepted so far less the width of the window. -/
def Admissible (seen : List UInt32) (p : UInt32) : Prop :=
  p ≠ 0 ∧ p ∉ seen ∧ ∀ m ∈ seen, (∀ q ∈ seen, q ≤ m) → (m.toNat : ℤ) - 64 < p.toNat

lemma Represents.admits {w : ReplayWindow} {seen : List UInt32} (h : w.Represents seen)
    (p : UInt32) : (w.checkAndSet p).1 = true ↔ Admissible seen p := by
  rw [checkAndSet_fst]
  refine and_congr_right fun h0 => ?_
  rw [h.barred h0]
  rcases h.top with ⟨rfl, hzero⟩ | htop
  · -- nothing accepted yet: every id is above the top
    have hgt : ¬ p ≤ w.highest := by
      rw [hzero]
      exact fun hle => h0 (UInt32.le_zero_iff.mp hle)
    simp [hgt]
  · have hgreatest : (∀ m ∈ seen, (∀ q ∈ seen, q ≤ m) → (m.toNat : ℤ) - 64 < p.toNat) ↔
        (w.highest.toNat : ℤ) - 64 < p.toNat := by
      refine ⟨fun hall => hall _ htop h.le, fun hlt m hm hmax => ?_⟩
      have heq : m = w.highest := UInt32.le_antisymm (h.le m hm) (hmax _ htop)
      rw [heq]
      exact hlt
    rw [hgreatest, not_and, not_or, UInt32.le_iff_toNat_le]
    constructor
    · intro hbar
      refine ⟨fun hp => ?_, ?_⟩
      · exact (hbar (UInt32.le_iff_toNat_le.mp (h.le p hp))).2 hp
      · by_cases hle : p.toNat ≤ w.highest.toNat
        · have := (hbar hle).1
          omega
        · omega
    · rintro ⟨hp, hlt⟩ hle
      exact ⟨by omega, hp⟩

/-- **The window refines its set specification.** After any calls on a fresh window, an id is
accepted exactly if the set of the ids accepted so far admits it; and so no id is accepted
twice. -/
theorem checkAndSet_refines_set (ps : List UInt32) :
    (∀ p, ((run next new ps).checkAndSet p).1 = true ↔ Admissible (accepted ps) p) ∧
      (accepted ps).Nodup := by
  refine ⟨fun p => (represents_run ps).admits p, ?_⟩
  induction ps using List.reverseRecOn with
  | nil => exact List.nodup_nil
  | append_singleton ps p ih =>
    rw [accepted_snoc]
    split
    · rename_i hok
      have hfresh := (((represents_run ps).admits p).mp hok).2.1
      refine List.nodup_append.mpr ⟨ih, by simp, fun q hq r hr => ?_⟩
      rw [List.mem_singleton.mp hr]
      exact fun e => hfresh (e ▸ hq)
    · simpa using ih

end ReplayWindow

end Javs
