import Mathlib.Tactic.Lemma
import Mathlib.Tactic.Common
import Mathlib.Data.Nat.Bitwise

/-!
The sliding replay window.

`highest` is the largest id accepted so far and bit `n` of the bitmap stands for
`highest - n`. An id is *barred* when it has fallen out of the window or its bit is set;
the check accepts exactly the ids that are neither zero nor barred, and barred ids stay
barred whatever is checked afterwards.
-/

namespace Javs

def windowSize : ℕ := 64

structure ReplayWindow where
  highest : UInt32 := 0
  bitmap : BitVec 64 := 0
  deriving DecidableEq, Repr

namespace ReplayWindow

def new : ReplayWindow := {}

/-- Whether the packet is acceptable, and the window with it recorded as seen. -/
def checkAndSet (w : ReplayWindow) (packetId : UInt32) : Bool × ReplayWindow :=
  if packetId = 0 then (false, w)
  else if packetId > w.highest then
    let shift := (packetId - w.highest).toNat
    let bitmap := if shift ≥ 64 then 1 else (w.bitmap <<< shift) ||| 1
    (true, ⟨packetId, bitmap⟩)
  else
    let diff := (w.highest - packetId).toNat
    if diff ≥ windowSize then (false, w)
    else
      let bit := 1#64 <<< diff
      if w.bitmap &&& bit ≠ 0 then (false, w)
      else (true, { w with bitmap := w.bitmap ||| bit })

/-- `p` has fallen out of the window, or its bit is set. -/
def Barred (w : ReplayWindow) (p : UInt32) : Prop :=
  p ≤ w.highest ∧ (windowSize ≤ w.highest.toNat - p.toNat ∨
    w.bitmap.getLsbD (w.highest.toNat - p.toNat) = true)

lemma toNat_sub_of_le {a b : UInt32} (h : b ≤ a) : (a - b).toNat = a.toNat - b.toNat := by
  have h1 := UInt32.le_iff_toNat_le.mp h
  have h2 := a.toNat_lt
  rw [UInt32.toNat_sub]
  omega

lemma getLsbD_bit {d i : ℕ} (hd : d < 64) : (1#64 <<< d).getLsbD i = decide (d = i) := by
  have h : 1#64 <<< d = BitVec.twoPow 64 d := rfl
  rw [h, BitVec.getLsbD_twoPow]
  simp [hd]

lemma and_bit_ne_zero (b : BitVec 64) {d : ℕ} (hd : d < 64) :
    b &&& (1#64 <<< d) ≠ 0 ↔ b.getLsbD d = true := by
  constructor
  · intro h
    by_contra hb
    refine h (BitVec.eq_of_getLsbD_eq fun i _ => ?_)
    rw [BitVec.getLsbD_and, getLsbD_bit hd]
    by_cases hid : d = i
    · subst hid; simpa using hb
    · simp [hid]
  · intro h h0
    have := congrArg (fun x => x.getLsbD d) h0
    simp only [BitVec.getLsbD_and, getLsbD_bit hd, h] at this
    simp at this

lemma checkAndSet_cases (w : ReplayWindow) (p : UInt32) :
    ((p = 0 ∨ w.Barred p) ∧ w.checkAndSet p = (false, w)) ∨
    (w.highest < p ∧ w.checkAndSet p = (true, ⟨p, if (p - w.highest).toNat ≥ 64 then 1
      else (w.bitmap <<< (p - w.highest).toNat) ||| 1⟩)) ∨
    (p ≠ 0 ∧ p ≤ w.highest ∧ ¬ w.Barred p ∧ w.highest.toNat - p.toNat < 64 ∧
      w.checkAndSet p =
        (true, ⟨w.highest, w.bitmap ||| 1#64 <<< (w.highest.toNat - p.toNat)⟩)) := by
  unfold checkAndSet
  by_cases h0 : p = 0
  · exact .inl ⟨.inl h0, by simp [h0]⟩
  by_cases hgt : p > w.highest
  · exact .inr (.inl ⟨hgt, by simp [h0, hgt]⟩)
  have hle : p ≤ w.highest := UInt32.not_lt.mp hgt
  have hb : w.Barred p ↔ windowSize ≤ w.highest.toNat - p.toNat ∨
      w.bitmap.getLsbD (w.highest.toNat - p.toNat) = true := by simp [Barred, hle]
  simp only [h0, hgt, if_false, toNat_sub_of_le hle]
  by_cases hd : w.highest.toNat - p.toNat ≥ windowSize
  · exact .inl ⟨.inr (hb.mpr (.inl hd)), by simp [hd]⟩
  have hd' : w.highest.toNat - p.toNat < 64 := by unfold windowSize at hd; omega
  have hbit := and_bit_ne_zero w.bitmap hd'
  simp only [hd, if_false]
  by_cases hs : w.bitmap &&& (1#64 <<< (w.highest.toNat - p.toNat)) = 0
  · refine .inr (.inr ⟨h0, hle, ?_, hd', by simp [hs]⟩)
    rw [hb]
    exact fun h => h.elim hd fun h => hbit.mpr h hs
  · exact .inl ⟨.inr (hb.mpr (.inr (hbit.mp hs))), if_pos hs⟩

/-- **What the check accepts**: the ids that are neither zero nor barred. -/
lemma checkAndSet_fst (w : ReplayWindow) (p : UInt32) :
    (w.checkAndSet p).1 = true ↔ p ≠ 0 ∧ ¬ w.Barred p := by
  rcases checkAndSet_cases w p with ⟨h, e⟩ | ⟨h, e⟩ | ⟨h0, hle, h, -, e⟩
  · rw [e]; simp; tauto
  · have hp : p ≠ 0 := by rintro rfl; exact absurd h (by simp)
    have hn : ¬ w.Barred p := fun hb => absurd hb.1 (UInt32.not_le.mpr h)
    rw [e]; simp [hp, hn]
  · rw [e]; simp [h0, h]

lemma checkAndSet_of_refused {w : ReplayWindow} {p : UInt32} (h : (w.checkAndSet p).1 = false) :
    (w.checkAndSet p).2 = w := by
  rcases checkAndSet_cases w p with ⟨-, e⟩ | ⟨-, e⟩ | ⟨-, -, -, -, e⟩
  · rw [e]
  · rw [e] at h; simp at h
  · rw [e] at h; simp at h

lemma barred_checkAndSet_self {w : ReplayWindow} {p : UInt32} (h : (w.checkAndSet p).1 = true) :
    (w.checkAndSet p).2.Barred p := by
  rcases checkAndSet_cases w p with ⟨-, e⟩ | ⟨-, e⟩ | ⟨-, hle, -, hd, e⟩
  · rw [e] at h; simp at h
  · rw [e]
    refine ⟨UInt32.le_refl p, .inr ?_⟩
    simp only [Nat.sub_self]
    split <;> simp
  · rw [e]
    refine ⟨hle, .inr ?_⟩
    rw [BitVec.getLsbD_or, getLsbD_bit hd]
    simp

/-- **Barred ids stay barred**, whatever is checked next. -/
lemma Barred.checkAndSet {w : ReplayWindow} {q : UInt32} (hq : w.Barred q) (p : UInt32) :
    (w.checkAndSet p).2.Barred q := by
  obtain ⟨hle, hw⟩ := hq
  rcases checkAndSet_cases w p with ⟨-, e⟩ | ⟨hlt, e⟩ | ⟨-, -, -, hd, e⟩
  · rw [e]; exact ⟨hle, hw⟩
  · rw [e]
    have hsub := toNat_sub_of_le (UInt32.le_of_lt hlt)
    have h1 := UInt32.le_iff_toNat_le.mp hle
    have h2 := UInt32.lt_iff_toNat_lt.mp hlt
    refine ⟨UInt32.le_of_lt (UInt32.lt_of_le_of_lt hle hlt), ?_⟩
    -- the distance of `q` from the top grows by the shift
    have hadd : p.toNat - q.toNat = (w.highest.toNat - q.toNat) + (p - w.highest).toNat := by omega
    simp only [hadd]
    unfold windowSize at hw ⊢
    by_cases hbig : 64 ≤ (w.highest.toNat - q.toNat) + (p - w.highest).toNat
    · exact .inl hbig
    · right
      have hs : ¬ (p - w.highest).toNat ≥ 64 := by omega
      rcases hw with hw | hw
      · omega
      · rw [if_neg hs, BitVec.getLsbD_or, BitVec.getLsbD_shiftLeft]
        simp only [Nat.add_sub_cancel, hw]
        simp
        omega
  · rw [e]
    refine ⟨hle, hw.imp id fun h => ?_⟩
    rw [BitVec.getLsbD_or, h]
    rfl

end ReplayWindow

end Javs
