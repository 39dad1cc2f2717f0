import Mathlib.Algebra.Order.Floor.Div
import Mathlib.Data.List.DropRight
import Javs.Lib.Blocks
import Javs.Prf

/-!
What the key derivation computes: a beginning of the TLS 1.0 PRF.

`P_hash` is an infinite stream of HMAC blocks, each over a link of the chain `A`. The loop
holds the link of the block it writes next, so that after `i` rounds it stands at `A(i + 1)`
and has written the first `i` blocks, the last one cut off where the output ends.
-/

namespace Javs

open Bytes Lib

section PHash

variable (hmac : Bytes → Bytes → Bytes) (secret seed : Bytes)

/-- The chain `A(0) = seed`, `A(i) = HMAC(secret, A(i - 1))`. -/
def pChain : ℕ → Bytes
  | 0 => seed
  | i + 1 => hmac secret (pChain i)

/-- `HMAC(secret, A(i + 1) || seed)`: the blocks are counted from 0, the chain from 1. -/
def pBlock (i : ℕ) : Bytes := hmac secret (pChain hmac secret seed (i + 1) ++ seed)

/-- `P_hash(secret, seed)`, the concatenation of all its blocks of `k` bytes. -/
def pStream (k : ℕ) : ℕ → UInt8 := blockStream k (pBlock hmac secret seed)

variable {hmac secret seed} {k : ℕ}

lemma pHashLoop_eq (hlen : ∀ m, (hmac secret m).length = k) (n : ℕ) {fuel i : ℕ}
    (hfuel : n ≤ k * (i + fuel)) :
    pHashLoop hmac secret seed n fuel (pChain hmac secret seed (i + 1))
        (streamTake k (pBlock hmac secret seed) (min n (k * i))) =
      streamTake k (pBlock hmac secret seed) n := by
  induction fuel generalizing i with
  | zero =>
    -- out of fuel: the blocks already cover the requested length
    have hdone : n ≤ k * i := hfuel
    rw [pHashLoop, Nat.min_eq_left hdone]
  | succ fuel ih =>
    rw [pHashLoop, length_streamTake]
    rcases Nat.lt_or_ge (k * i) n with hroom | hfull
    · have hblock : hmac secret (pChain hmac secret seed (i + 1) ++ seed) =
          pBlock hmac secret seed i := rfl
      have hnext : hmac secret (pChain hmac secret seed (i + 1)) =
          pChain hmac secret seed (i + 1 + 1) := rfl
      have hlens (j : ℕ) : (pBlock hmac secret seed j).length = k := hlen _
      have hround := streamTake_round hlens hroom
      rw [Nat.min_eq_right (Nat.le_of_lt hroom), if_pos hroom, hblock, hnext]
      dsimp only
      rw [hround]
      exact ih (by rw [Nat.add_right_comm i 1 fuel]; exact hfuel)
    · rw [Nat.min_eq_left hfull, if_neg (Nat.lt_irrefl n)]

/-- **`p_hash`** fills its output with the first bytes of the stream. -/
theorem pHash_eq (hk : 0 < k) (hlen : ∀ m, (hmac secret m).length = k) (n : ℕ) :
    pHash hmac secret seed n = (List.range n).map (pStream hmac secret seed k) := by
  have henough : n ≤ k * (0 + n) := by
    rw [Nat.zero_add]
    exact Nat.le_mul_of_pos_left n hk
  have hloop : pHashLoop hmac secret seed n n (pChain hmac secret seed (0 + 1))
      (streamTake k (pBlock hmac secret seed) (min n (k * 0))) =
        streamTake k (pBlock hmac secret seed) n := pHashLoop_eq hlen n henough
  rw [Nat.mul_zero, Nat.min_zero] at hloop
  exact hloop

end PHash

/-- What is documented of the two HMACs: the size of their results. -/
structure Primitives.HmacSizes (p : Primitives) : Prop where
  md5 : ∀ key m, (p.hmacMd5 key m).length = 16
  sha1 : ∀ key m, (p.hmacSha1 key m).length = 20

/-- The TLS 1.0 PRF: `P_MD5` under the first half of the secret xor `P_SHA1` under the last,
where a middle byte belongs to both. -/
def tls10Stream (p : Primitives) (secret label seed : Bytes) (j : ℕ) : UInt8 :=
  let half := secret.length ⌈/⌉ 2
  pStream p.hmacMd5 (secret.take half) (label ++ seed) 16 j ^^^
    pStream p.hmacSha1 (secret.rtake half) (label ++ seed) 20 j

/-- **The PRF.** For every secret, label, seed and length the output is the beginning of the
TLS 1.0 PRF of that length; so a shorter output is the beginning of a longer one. -/
theorem tls10Prf_eq_stream (p : Primitives) (hp : p.HmacSizes) (secret label seed : Bytes) (n : ℕ) :
    tls10Prf p secret label seed n = (List.range n).map (tls10Stream p secret label seed) ∧
      ∀ m ≤ n, tls10Prf p secret label seed m <+: tls10Prf p secret label seed n := by
  have heq (n : ℕ) : tls10Prf p secret label seed n =
      (List.range n).map (tls10Stream p secret label seed) := by
    unfold tls10Prf
    dsimp only
    rw [pHash_eq (by decide) (hp.md5 _), pHash_eq (by decide) (hp.sha1 _), List.zipWith_map,
      List.zipWith_self]
    rfl
  refine ⟨heq n, fun m hm => ?_⟩
  have htake : List.range m = (List.range n).take m := by
    rw [List.take_range, Nat.min_eq_left hm]
  rw [heq, heq, htake, List.map_take]
  exact List.take_prefix m _

def lengthPrims : Primitives :=
  { plainPrims with
    hmacMd5 := fun k m => List.replicate 16 (UInt8.ofNat (k.length + 3 * m.length) + m.headD 0)
    hmacSha1 := fun k m => List.replicate 20 (UInt8.ofNat (7 * k.length + m.length) + m.headD 0) }

theorem tls10Prf_eq_stream_odd :
    let prf := tls10Prf lengthPrims [1, 2, 3] [76] [5, 6]
    prf 37 = (List.range 37).map (tls10Stream lengthPrims [1, 2, 3] [76] [5, 6]) ∧
      prf 21 <+: prf 37 := by
  obtain ⟨hstream, hpre⟩ := tls10Prf_eq_stream lengthPrims
    ⟨fun _ _ => List.length_replicate, fun _ _ => List.length_replicate⟩ [1, 2, 3] [76] [5, 6] 37
  exact ⟨hstream, hpre 21 (by decide)⟩

end Javs
