import Mathlib.Data.List.Basic
import Mathlib.Data.List.Nodup
import Mathlib.Tactic.Lemma

/-!
Putting numbered things in order.

Things that are numbered from 0 on may reach a receiver in any order and more than once. What it
can use is the initial part without a gap. If whatever it finds under a number is what the sender
has numbered so, this is an initial part of what was sent, and it is all of it as soon as nothing
is missing.
-/

namespace Javs.Lib

variable {α : Type}

/-- What is found under the numbers from `n` on, up to the first gap, and not more than `fuel`
things. -/
def inOrder (find : ℕ → Option α) : ℕ → ℕ → List α
  | _, 0 => []
  | n, fuel + 1 =>
    match find n with
    | some a => a :: inOrder find (n + 1) fuel
    | none => []

variable {find : ℕ → Option α} {l : List α}

theorem inOrder_initial (h : ∀ n ≤ l.length, ∀ a, find n = some a → l[n]? = some a) {n : ℕ}
    (hn : n ≤ l.length) (fuel : ℕ) : inOrder find n fuel <+: l.drop n := by
  induction fuel generalizing n with
  | zero => exact List.nil_prefix
  | succ fuel ih =>
    rw [inOrder]
    rcases hf : find n with _ | a
    · exact List.nil_prefix
    · obtain ⟨hlt, ha⟩ := List.getElem?_eq_some_iff.mp (h n hn a hf)
      rw [List.drop_eq_getElem_cons hlt, ha]
      exact List.prefix_cons_inj a |>.mpr (ih hlt)

theorem inOrder_complete (h : ∀ n, n < l.length → find n = l[n]?) {n fuel : ℕ}
    (hfuel : l.length ≤ n + fuel) : (inOrder find n fuel).take (l.length - n) = l.drop n := by
  induction fuel generalizing n with
  | zero => rw [List.drop_eq_nil_of_le (by omega), inOrder, List.take_nil]
  | succ fuel ih =>
    rcases Nat.lt_or_ge n l.length with hlt | hge
    · have hf := h n hlt
      rw [List.getElem?_eq_getElem hlt] at hf
      rw [inOrder, hf, List.drop_eq_getElem_cons hlt,
        show l.length - n = l.length - (n + 1) + 1 by omega, List.take_succ_cons,
        ih (by omega)]
    · rw [List.drop_eq_nil_of_le hge, Nat.sub_eq_zero_of_le hge, List.take_zero]

theorem inOrder_eq (hsound : ∀ n ≤ l.length, ∀ a, find n = some a → l[n]? = some a)
    (h : ∀ n, n < l.length → find n = l[n]?) {fuel : ℕ} (hfuel : l.length ≤ fuel) :
    inOrder find 0 fuel = l := by
  have hpre := inOrder_initial hsound (Nat.zero_le _) fuel
  have hall : (inOrder find 0 fuel).take (l.length - 0) = l.drop 0 :=
    inOrder_complete h (by omega)
  rw [List.drop_zero] at hpre hall
  rw [Nat.sub_zero, List.take_of_length_le hpre.length_le] at hall
  exact hall

end Javs.Lib
