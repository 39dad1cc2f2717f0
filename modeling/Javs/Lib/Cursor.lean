import Mathlib.Data.List.Nodup
import Mathlib.Data.List.Range
import Mathlib.Data.List.ReduceOption
import Mathlib.Tactic.Lemma
import Javs.Lib.Proc

/-!
A cursor that hands out the numbers of a range.

With every number it hands out the cursor moves up by one, modulo the width `N` of its word,
and once it is past the end of the range nothing is handed out any more. All the numbers of
the range are handed out, each of them once, unless the range ends at the top of the word:
then the cursor wraps around before it can pass the end.
-/

namespace Javs.Lib

/-- One call: the number under the cursor, unless that is past `stop`, and the cursor after it. -/
def handOut (N stop cur : ℕ) : Option ℕ × ℕ :=
  if stop < cur then (none, cur) else (some cur, (cur + 1) % N)

def handOuts (N stop : ℕ) : ℕ → ℕ → List (Option ℕ)
  | 0, _ => []
  | n + 1, cur => (handOut N stop cur).1 :: handOuts N stop n (handOut N stop cur).2

/-- What is asked of an allocator for the numbers from `lo` to `hi`, by its results: it keeps to
the range, hands out no number twice, and fails once all have been handed out. -/
structure LawfulRange (lo hi : ℕ) (results : List (Option ℕ)) : Prop where
  inside : ∀ a, some a ∈ results → lo ≤ a ∧ a ≤ hi
  once : results.reduceOption.Nodup
  exhausted : ∀ done rest, results = done ++ rest → (∀ a, lo ≤ a → a ≤ hi → some a ∈ done) →
    ∀ r ∈ rest, r = none

lemma LawfulRange.of_once {lo hi : ℕ} {results : List (Option ℕ)}
    (hin : ∀ a, some a ∈ results → lo ≤ a ∧ a ≤ hi) (honce : results.reduceOption.Nodup) :
    LawfulRange lo hi results := by
  refine ⟨hin, honce, fun done rest hsplit hall r hr => ?_⟩
  rcases r with _ | a
  · rfl
  · obtain ⟨hlo, hhi⟩ := hin a (by rw [hsplit]; exact List.mem_append_right _ hr)
    rw [hsplit, List.reduceOption_append] at honce
    exact absurd (List.reduceOption_mem_iff.mpr hr) (List.disjoint_of_nodup_append honce
      (List.reduceOption_mem_iff.mpr (hall a hlo hhi)))

section HandOuts

variable {N stop cur : ℕ}

lemma handOut_of_le (h : cur ≤ stop) : handOut N stop cur = (some cur, (cur + 1) % N) :=
  if_neg (by omega)

lemma handOut_of_lt (h : stop < cur) : handOut N stop cur = (none, cur) := if_pos h

lemma handOuts_add (hN : stop < N) (hcur : cur < N) (k n : ℕ) (h : cur + k ≤ stop + 1) :
    handOuts N stop (k + n) cur =
      (List.range' cur k).map some ++ handOuts N stop n ((cur + k) % N) := by
  induction k generalizing cur with
  | zero =>
    rw [Nat.zero_add, Nat.add_zero, Nat.mod_eq_of_lt hcur]
    rfl
  | succ k ih =>
    rw [show k + 1 + n = (k + n) + 1 by omega, handOuts, handOut_of_le (by omega)]
    rcases Nat.lt_or_ge (cur + 1) N with hlt | hge
    · rw [Nat.mod_eq_of_lt hlt, ih hlt (by omega), show cur + 1 + k = cur + (k + 1) by omega]
      rfl
    · -- the last number of the word was the last one to hand out
      obtain rfl : k = 0 := by omega
      rw [Nat.zero_add]
      rfl

lemma handOuts_of_lt (h : stop < cur) (n : ℕ) : handOuts N stop n cur = List.replicate n none := by
  induction n with
  | zero => rfl
  | succ n ih => rw [handOuts, handOut_of_lt h, ih, List.replicate_succ]

lemma handOuts_eq (hN : stop + 1 < N) (hcur : cur < N) (n : ℕ) :
    handOuts N stop n cur = (List.range' cur (min n (stop + 1 - cur))).map some ++
      List.replicate (n - min n (stop + 1 - cur)) none := by
  rcases Nat.le_total n (stop + 1 - cur) with hle | hge
  · rw [Nat.min_eq_left hle, Nat.sub_self]
    rcases Nat.eq_zero_or_pos n with rfl | hpos
    · rfl
    · exact handOuts_add (by omega) hcur n 0 (by omega)
  · rw [Nat.min_eq_right hge]
    rcases Nat.lt_or_ge stop cur with hlt | hle
    · rw [show stop + 1 - cur = 0 by omega]
      exact handOuts_of_lt hlt n
    · conv_lhs => rw [show n = stop + 1 - cur + (n - (stop + 1 - cur)) by omega]
      rw [handOuts_add (by omega) hcur _ _ (by omega),
        show cur + (stop + 1 - cur) = stop + 1 by omega, Nat.mod_eq_of_lt hN,
        handOuts_of_lt (by omega)]

/-- **The law of the cursor.** Its calls are lawful, however many there are, exactly if the range
does not end at the top of the word. -/
theorem lawful_handOuts (hN : stop < N) (hcur : cur < N) :
    (∀ n, LawfulRange cur stop (handOuts N stop n cur)) ↔ stop + 1 ≠ N := by
  constructor
  · rintro h rfl
    -- behind the last number comes zero again
    have hzero : handOuts (stop + 1) stop 1 0 = [some 0] := by
      rw [handOuts, handOut_of_le (Nat.zero_le stop)]
      rfl
    have hlaw := h (stop + 1 - cur + 1)
    rw [handOuts_add hN hcur _ 1 (by omega), show cur + (stop + 1 - cur) = stop + 1 by omega,
      Nat.mod_self, hzero] at hlaw
    obtain rfl : cur = 0 := by
      have := (hlaw.inside 0 (by simp)).1
      omega
    have honce := hlaw.once
    rw [List.reduceOption_append] at honce
    refine absurd (@List.disjoint_of_nodup_append ℕ _ _ honce 0 ?_ ?_) id
    · exact List.reduceOption_mem_iff.mpr (by simp)
    · simp [List.reduceOption]
  · intro hne n
    rw [handOuts_eq (by omega) hcur n]
    refine .of_once (fun a ha => ?_) ?_
    · simp only [List.mem_append, List.mem_map, List.mem_range'_1, List.mem_replicate] at ha
      rcases ha with ⟨b, hb, hba⟩ | ⟨-, hnone⟩
      · obtain rfl := Option.some.inj hba
        omega
      · cases hnone
    · rw [List.reduceOption_append, List.reduceOption_replicate_none, List.append_nil]
      simpa [List.reduceOption] using List.nodup_range'

end HandOuts

/-! ### Programs that allocate -/

namespace Proc

variable {σ ε α : Type}

def calls (m : Proc σ ε α) : ℕ → σ → List (Option α)
  | 0, _ => []
  | n + 1, s => (m s).1.toOption :: calls m n (m s).2

lemma calls_eq_handOuts {m : Proc σ ε α} {I : σ → Prop} (cur : σ → ℕ) {num : α → Option ℕ}
    {N stop : ℕ} (h : ∀ s, I s → I (m s).2 ∧
      ((m s).1.toOption.bind num, cur (m s).2) = handOut N stop (cur s)) {s : σ} (hs : I s)
    (n : ℕ) :
    (calls m n s).map (·.bind num) = handOuts N stop n (cur s) := by
  induction n generalizing s with
  | zero => rfl
  | succ n ih =>
    obtain ⟨hI, hcall⟩ := h s hs
    rw [calls, handOuts, List.map_cons, ih hI, ← hcall]

end Proc

end Javs.Lib
