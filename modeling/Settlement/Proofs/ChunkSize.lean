import Mathlib.Data.Nat.Log
import Settlement.Batch.Chunk
import Settlement.Proofs.SquareRoot

namespace Settlement

/-- From four on, powers of two are not below squares. Below, the logarithm can exceed the root. -/
theorem mul_self_le_two_pow {k : Nat} (hk : 4 ≤ k) : k * k ≤ 2 ^ k := by
  induction k, hk using Nat.le_induction with
  | base => decide
  | succ k hk ih =>
    have hsquare : 4 * k ≤ k * k := Nat.mul_le_mul_right k hk
    have hnext : (k + 1) * (k + 1) = k * k + k + k + 1 := by rw [Nat.succ_mul, Nat.mul_succ]; omega
    rw [hnext, Nat.pow_succ]
    omega

theorem sqrt_mul_log2_le {n : Nat} (root log : Nat) (hroot : n < (root + 1) * (root + 1))
    (hlog : n < 2 ^ (log + 1)) (hle : root * log ≤ n) : n.sqrt * n.log2 ≤ n := by
  have hsqrt : n.sqrt ≤ root := Nat.le_of_lt_succ (Nat.sqrt_lt.2 hroot)
  have hlog2 : n.log2 ≤ log := by
    by_cases hzero : n = 0
    · rw [hzero, Nat.log2_zero]
      exact Nat.zero_le log
    · exact Nat.le_of_lt_succ ((Nat.log2_lt hzero).2 hlog)
  exact Nat.le_trans (Nat.mul_le_mul hsqrt hlog2) hle

/-- The logarithm is no larger than the root but for the smallest numbers, and so the product of
both is no larger than the number. -/
theorem sqrt_mul_log2_le_self (n : Nat) : n.sqrt * n.log2 ≤ n := by
  -- below nine the logarithm can exceed the root
  by_cases hnine : 9 ≤ n
  · have hroot : 3 ≤ n.sqrt := Nat.le_sqrt.2 hnine
    have hlt : n < (n.sqrt + 1) * (n.sqrt + 1) := Nat.lt_succ_sqrt n
    have hpow : (n.sqrt + 1) * (n.sqrt + 1) ≤ 2 ^ (n.sqrt + 1) := mul_self_le_two_pow (by omega)
    exact sqrt_mul_log2_le n.sqrt n.sqrt hlt (Nat.lt_of_lt_of_le hlt hpow) (Nat.sqrt_le n)
  · by_cases htwo : n < 2
    · exact sqrt_mul_log2_le 1 0 (by omega) htwo (Nat.zero_le n)
    · by_cases hfour : n < 4
      · exact sqrt_mul_log2_le 1 1 hfour hfour (by omega)
      · by_cases height : n < 8
        · exact sqrt_mul_log2_le 2 2 (by omega) height (by omega)
        · exact sqrt_mul_log2_le 2 3 (by omega) (by omega) (by omega)

theorem chunkSize_le (n : Nat) : chunkSize n ≤ n := by
  unfold chunkSize
  split
  · exact Nat.le_refl n
  · rw [isqrt_eq_sqrt]
    exact Nat.le_trans (Nat.min_le_left ..) (sqrt_mul_log2_le_self n)

/-- More operations have no shorter chunks, since neither the root nor the logarithm falls. -/
theorem chunkSize_mono {m n : Nat} (h : m ≤ n) : chunkSize m ≤ chunkSize n := by
  unfold chunkSize
  by_cases hn : n ≤ 1
  · rwa [if_pos hn, if_pos (h.trans hn)]
  · by_cases hm : m ≤ 1
    · have hpos : 0 < chunkSize n := chunkSize_pos (by omega)
      rw [if_pos hm]
      exact hm.trans hpos
    · have hlog : m.log2 ≤ n.log2 := by
        rw [Nat.log2_eq_log_two, Nat.log2_eq_log_two]
        exact Nat.log_mono_right h
      have hproduct := Nat.mul_le_mul (isqrt_mono h) hlog
      rw [if_neg hm, if_neg hn]
      omega

/-- No window is longer than what it is cut from, whether it is chunked or not. -/
theorem windowFor_le (chunking : Bool) (n : Nat) : windowFor chunking n ≤ n := by
  unfold windowFor
  split
  · exact chunkSize_le n
  · exact Nat.le_refl n

/-- The product is not held at the largest word, since it is no larger than the number of
operations. -/
theorem isqrt_mul_log2_lt (n : Count) : isqrt n.val * n.val.log2 < 2 ^ 64 := by
  rw [isqrt_eq_sqrt]
  exact Nat.lt_of_le_of_lt (sqrt_mul_log2_le_self n.val) n.isLt

/-- More operations have no shorter chunks. The chunks of some operations hold at least one of them
and at most all, and from two operations on they hold the root of their number times its logarithm,
both rounded down: the product does not leave the width. -/
theorem chunkSize_bounds (n : Count) :
    (∀ m : Count, m ≤ n → chunkSize m.val ≤ chunkSize n.val) ∧
      (1 ≤ n.val → 1 ≤ chunkSize n.val ∧ chunkSize n.val ≤ n.val) ∧
      (2 ≤ n.val → isqrt n.val * n.val.log2 < 2 ^ 64 ∧
        chunkSize n.val = Nat.sqrt n.val * Nat.log 2 n.val) := by
  refine ⟨fun m hle => chunkSize_mono hle, fun hsome => ⟨chunkSize_pos hsome, chunkSize_le n.val⟩,
    fun htwo => ?_⟩
  have hlt := isqrt_mul_log2_lt n
  refine ⟨hlt, ?_⟩
  rw [← isqrt_eq_sqrt, ← Nat.log2_eq_log_two, chunkSize, if_neg (by omega)]
  omega

/-- Sixteen operations are one chunk. -/
theorem chunkSize_bounds_of_sixteen :
    (15 : Count) ≤ 16 ∧ chunkSize 15 ≤ chunkSize 16 ∧ 1 ≤ 16 ∧ chunkSize 16 ≤ 16 ∧ 2 ≤ 16 ∧
      chunkSize 16 = 16 := by
  obtain ⟨hmono, hwithin, hproduct⟩ := chunkSize_bounds 16
  have hsixteen : Nat.sqrt 16 * Nat.log 2 16 = 16 := by decide +kernel
  exact ⟨by decide, hmono 15 (by decide), by decide, (hwithin (by decide)).2, by decide,
    (hproduct (by decide)).2.trans hsixteen⟩

end Settlement
