import Mathlib.Data.List.GetD
import Mathlib.Tactic.Lemma

/-!
An infinite sequence of blocks of one size, laid end to end.

The stream is given by its elements, the `j`-th being found in block `j / k`. A loop that appends
block after block, and the last one only in part, has written a beginning of it.
-/

namespace Javs.Lib

variable {α : Type} [Inhabited α] (k : ℕ) (block : ℕ → List α)

/-- The concatenation of all blocks. -/
def blockStream (j : ℕ) : α := (block (j / k)).getD (j % k) default

def streamTake (n : ℕ) : List α := (List.range n).map (blockStream k block)

@[simp] lemma length_streamTake (n : ℕ) : (streamTake k block n).length = n := by
  simp [streamTake]

lemma take_streamTake (m n : ℕ) :
    (streamTake k block n).take m = streamTake k block (min m n) := by
  rw [streamTake, ← List.map_take, List.take_range, streamTake]

variable {k block}

lemma streamTake_add_block (hlen : ∀ i, (block i).length = k) (N : ℕ) :
    streamTake k block (k * (N + 1)) = streamTake k block (k * N) ++ block N := by
  have hblock : (List.range k).map (fun j => blockStream k block (k * N + j)) = block N := by
    apply List.ext_getElem
    · simp [hlen]
    · intro j h1 h2
      have hj : j < k := by simpa using h1
      have hdiv : (k * N + j) / k = N := by
        rw [Nat.mul_add_div (by omega), Nat.div_eq_of_lt hj, Nat.add_zero]
      have hmod : (k * N + j) % k = j := by
        rw [Nat.mul_add_mod, Nat.mod_eq_of_lt hj]
      simp only [List.getElem_map, List.getElem_range, blockStream, hdiv, hmod]
      exact List.getD_eq_getElem _ _ h2
  rw [Nat.mul_succ, streamTake, List.range_add, List.map_append, List.map_map, streamTake]
  exact congrArg _ hblock

lemma streamTake_round (hlen : ∀ i, (block i).length = k) {N n : ℕ} (h : k * N < n) :
    streamTake k block (k * N) ++ (block N).take (n - k * N) =
      streamTake k block (min n (k * (N + 1))) := by
  have hcut : ((streamTake k block (k * N)) ++ block N).take n =
      streamTake k block (k * N) ++ (block N).take (n - k * N) := by
    rw [List.take_append, length_streamTake, List.take_of_length_le]
    rw [length_streamTake]
    exact Nat.le_of_lt h
  rw [← hcut, ← streamTake_add_block hlen, take_streamTake]

end Javs.Lib
