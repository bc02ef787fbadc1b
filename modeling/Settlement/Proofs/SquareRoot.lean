import Mathlib.Data.Nat.Sqrt
import Mathlib.Tactic.Linarith
import Mathlib.Tactic.Ring
import Settlement.Number.Newton

namespace Settlement

/-- Newton's method, as the program runs it, is the one that computes the square root of the
library. -/
theorem newton_eq_iter (n x : Nat) : newton n x = Nat.sqrt.iter n x := by
  fun_induction newton n x with
  | case1 x y hlt ih => rw [ih, Nat.sqrt.iter.eq_1 n x, dif_pos hlt]
  | case2 x y hnot => rw [Nat.sqrt.iter, dif_neg hnot]

theorem isqrt_eq_sqrt (n : Nat) : isqrt n = n.sqrt := by
  unfold isqrt Nat.sqrt
  split
  · next hsmall => rw [if_pos (by omega)]
  · next hlarge => rw [if_neg (by omega), newton_eq_iter, Nat.one_shiftLeft]

theorem isqrt_mono {m n : Nat} (h : m ≤ n) : isqrt m ≤ isqrt n := by
  rw [isqrt_eq_sqrt, isqrt_eq_sqrt]
  exact Nat.sqrt_le_sqrt h

section mean

variable {c n x : Nat}

/-- No mean is below the root, so that an estimate above the root is followed by one that is not
below it. -/
theorem sqrt_le_mean (n : Nat) (hx : 0 < x) : n.sqrt ≤ (x + n / x) / 2 := by
  have hsum : 2 * n.sqrt ≤ x + n / x := by
    by_cases hle : 2 * n.sqrt ≤ x
    · exact Nat.le_add_right_of_le hle
    · obtain ⟨k, hk⟩ := Nat.exists_eq_add_of_le (Nat.le_of_not_le hle)
      -- of two numbers with a given sum, equal ones have the largest product
      have hsquare : 4 * (k * x) ≤ 4 * (n.sqrt * n.sqrt) := by
        calc 4 * (k * x) = 4 * x * k := by ring
          _ ≤ (x + k) ^ 2 := four_mul_le_sq_add x k
          _ = 4 * (n.sqrt * n.sqrt) := by rw [← hk]; ring
      have hmul : k * x ≤ n :=
        (Nat.le_of_mul_le_mul_left hsquare (by decide)).trans (Nat.sqrt_le n)
      have hquot : k ≤ n / x := (Nat.le_div_iff_mul_le hx).2 hmul
      omega
  omega

/-- Only the root is not improved, so that the search ends at the root and nowhere else. -/
theorem le_mean_iff (hx : 0 < x) (h : n.sqrt ≤ x) : x ≤ (x + n / x) / 2 ↔ x = n.sqrt := by
  constructor
  · intro hle
    by_contra hne
    have hquot : n / x < x := Nat.div_lt_of_lt_mul (Nat.sqrt_lt.1 (by omega))
    omega
  · intro hroot
    have hle := sqrt_le_mean n hx
    omega

/-- From an estimate that is not below the root the quotient is hardly larger than the estimate,
which bounds the sum of both. -/
theorem div_le_add_two (hx : 0 < x) (h : n.sqrt ≤ x) : n / x ≤ x + 2 := by
  have hn : n < (x + 1) * (x + 1) := Nat.sqrt_lt.1 (Nat.lt_succ_of_le h)
  have hlt : n < x * (x + 3) := by
    rw [Nat.succ_mul, Nat.mul_succ] at hn
    rw [Nat.mul_add]
    omega
  exact Nat.le_of_lt_succ (Nat.div_lt_of_lt_mul hlt)

/-- The estimate `x` is not below the root, and above it by at most one more than the root divided
by `c`. -/
structure NearRoot (c n x : Nat) : Prop where
  sqrt_le : n.sqrt ≤ x
  mul_le : c * x ≤ (c + 1) * n.sqrt + c

/-- A distance from the root `s` of at most one more than `s / c`, when it is squared and divided by
twice the estimate. -/
private theorem error_le {s d e : Nat} (hpos : 0 < s + d) (hdist : c * d ≤ s + c)
    (herror : 2 * (s + d) * e ≤ d * d + 2 * s) : 2 * c * (c + 1) * e ≤ s + 2 * c * (c + 1) := by
  cases e with
  | zero => exact Nat.zero_le _
  | succ e =>
    suffices hrest : 2 * c * (c + 1) * e ≤ s by
      rw [Nat.mul_succ]
      exact Nat.add_le_add_right hrest _
    cases d with
    | zero =>
      -- at the root the next estimate is at most one above it
      have he : e = 0 := by
        rw [Nat.add_zero] at hpos herror
        by_contra hne
        have hone : s * 1 ≤ s * e := Nat.mul_le_mul_left s (Nat.pos_of_ne_zero hne)
        linarith
      rw [he]
      exact Nat.zero_le _
    | succ d =>
      have hd : c * d ≤ s := by
        rw [Nat.mul_succ] at hdist
        omega
      have hsquare : 2 * (s + (d + 1)) * e ≤ d * d := by linarith
      apply Nat.le_of_mul_le_mul_left _ hpos
      calc (s + (d + 1)) * (2 * c * (c + 1) * e)
          = c * (c + 1) * (2 * (s + (d + 1)) * e) := by ring
        _ ≤ c * (c + 1) * (d * d) := Nat.mul_le_mul_left _ hsquare
        _ = c * d * (c * d) + c * d * d := by ring
        _ ≤ s * s + s * d := Nat.add_le_add (Nat.mul_le_mul hd hd) (Nat.mul_le_mul_right d hd)
        _ ≤ (s + (d + 1)) * s := by linarith

/-- A turn about squares the part of the root by which the estimate is above it. -/
theorem NearRoot.mean (h : NearRoot c n x) (hx : 0 < x) :
    NearRoot (2 * c * (c + 1)) n ((x + n / x) / 2) := by
  have hle := sqrt_le_mean n hx
  refine ⟨hle, ?_⟩
  have hmean : 2 * x * ((x + n / x) / 2) ≤ x * x + n := by
    calc 2 * x * ((x + n / x) / 2) = x * (2 * ((x + n / x) / 2)) := by ring
      _ ≤ x * (x + n / x) := Nat.mul_le_mul_left x (Nat.mul_div_le ..)
      _ = x * x + x * (n / x) := Nat.mul_add ..
      _ ≤ x * x + n := Nat.add_le_add_left (Nat.mul_div_le ..) _
  have hn := Nat.sqrt_le_add n
  have hnear := h.mul_le
  obtain ⟨d, hd⟩ := Nat.exists_eq_add_of_le h.sqrt_le
  obtain ⟨e, he⟩ := Nat.exists_eq_add_of_le hle
  rw [he] at hmean ⊢
  have hdist : c * d ≤ n.sqrt + c := by
    rw [hd] at hnear
    linarith
  have herror : 2 * (n.sqrt + d) * e ≤ d * d + 2 * n.sqrt := by
    rw [hd] at hmean
    linarith
  have hbound := error_le (hd ▸ hx) hdist herror
  linarith

/-- Where the root is smaller than `c`, the estimate is the root or the next number. -/
theorem NearRoot.le_succ (h : NearRoot c n x) (hlt : n.sqrt < c) : x ≤ n.sqrt + 1 := by
  by_contra hnot
  have hfar : c * (n.sqrt + 2) ≤ c * x := Nat.mul_le_mul_left c (by omega)
  have hnear := h.mul_le
  linarith

theorem nearRoot_start (hn : 0 < n) : NearRoot 1 n (2 ^ (n.log2 / 2 + 1)) := by
  constructor
  · apply Nat.le_of_lt
    rw [Nat.sqrt_lt, ← Nat.pow_add]
    exact Nat.lt_of_lt_of_le Nat.lt_log2_self (Nat.pow_le_pow_right Nat.two_pos (by omega))
  · have hroot : 2 ^ (n.log2 / 2) ≤ n.sqrt := by
      rw [Nat.le_sqrt, ← Nat.pow_add]
      exact Nat.le_trans (Nat.pow_le_pow_right Nat.two_pos (by omega))
        (Nat.log2_self_le (Nat.ne_of_gt hn))
    rw [Nat.pow_succ]
    omega

/-- By which part of the root, at least, an estimate is near it after so many turns. It is about
squared by every turn, and so seven turns are enough for all numbers of 64 bits. -/
def sharpness : Nat → Nat
  | 0 => 1
  | k + 1 => 2 * sharpness k * (sharpness k + 1)

end mean

section words

variable {n x : Count}

theorem exists_newtonMean? (hx : 0 < x.val) (hle : n.val.sqrt ≤ x.val) (hsmall : x.val ≤ 2 ^ 32) :
    ∃ y, newtonMean? n x = some y ∧ y.val = (x.val + n.val / x.val) / 2 := by
  have hquot := div_le_add_two hx hle
  have hne : x ≠ 0 := by
    rintro rfl
    exact Nat.lt_irrefl 0 hx
  obtain ⟨sum, hsum⟩ : ∃ sum, x.add? (n.quot x) = some sum :=
    ⟨⟨x.val + n.val / x.val, by omega⟩, Word.add?_eq_some_iff.2 rfl⟩
  refine ⟨sum.quot 2, ?_, ?_⟩
  · exact Option.bind_eq_some_iff.2 ⟨n.quot x, if_neg hne,
      Option.bind_eq_some_iff.2 ⟨sum, hsum, if_neg (by decide)⟩⟩
  · rw [Word.val_quot, ← Word.add?_eq_some_iff.1 hsum]
    rfl

/-- A turn ends the search at the root, and goes on from a smaller estimate elsewhere. -/
theorem newtonWithin?_succ (turns : Nat) (hx : 0 < x.val) (hle : n.val.sqrt ≤ x.val)
    (hsmall : x.val ≤ 2 ^ 32) :
    x.val = n.val.sqrt ∧ newtonWithin? n (turns + 1) x = some x ∨
      ∃ y, y.val = (x.val + n.val / x.val) / 2 ∧ n.val.sqrt ≤ y.val ∧ y.val < x.val ∧
        newtonWithin? n (turns + 1) x = newtonWithin? n turns y := by
  obtain ⟨y, hy, hval⟩ := exists_newtonMean? hx hle hsmall
  have hstop : x ≤ y ↔ x.val = n.val.sqrt := by
    rw [Word.le_def, hval]
    exact le_mean_iff hx hle
  have hturn : newtonWithin? n (turns + 1) x = if x ≤ y then some x else newtonWithin? n turns y := by
    rw [newtonWithin?, hy]
    rfl
  rw [hturn]
  by_cases hroot : x.val = n.val.sqrt
  · exact .inl ⟨hroot, if_pos (hstop.2 hroot)⟩
  · have hnot : ¬ x ≤ y := fun h => hroot (hstop.1 h)
    refine .inr ⟨y, hval, hval ▸ sqrt_le_mean n.val hx, ?_, if_neg hnot⟩
    exact Nat.lt_of_not_le hnot

/-- The search from an estimate that so many turns make as sharp as the root is large. The last two
turns are for the number after the root, and for the root. -/
theorem newtonWithin?_of_near (hn : 0 < n.val) {k turns : Nat} (hsmall : x.val ≤ 2 ^ 32)
    (h : NearRoot (sharpness k) n.val x.val) (hsharp : n.val.sqrt < sharpness (k + turns)) :
    ∃ root, newtonWithin? n (turns + 2) x = some root ∧ root.val = n.val.sqrt := by
  have hroot : 0 < n.val.sqrt := Nat.sqrt_pos.2 hn
  have hx : 0 < x.val := Nat.lt_of_lt_of_le hroot h.sqrt_le
  induction turns generalizing k x with
  | zero =>
    have hsucc := h.le_succ hsharp
    rcases newtonWithin?_succ 1 hx h.sqrt_le hsmall with
      ⟨hval, hstop⟩ | ⟨y, -, hle, hlt, hnext⟩
    · exact ⟨x, hstop, hval⟩
    · rcases newtonWithin?_succ 0 (Nat.lt_of_lt_of_le hroot hle) hle (by omega) with
        ⟨hval, hstop⟩ | ⟨z, -, hle', hlt', -⟩
      · exact ⟨y, hnext.trans hstop, hval⟩
      · omega
  | succ turns ih =>
    rcases newtonWithin?_succ (turns + 2) hx h.sqrt_le hsmall with
      ⟨hval, hstop⟩ | ⟨y, hval, hle, hlt, hnext⟩
    · exact ⟨x, hstop, hval⟩
    · have hnear : NearRoot (sharpness (k + 1)) n.val y.val := hval ▸ h.mean hx
      rw [← Nat.add_assoc, Nat.add_right_comm] at hsharp
      obtain ⟨root, hfound, hval⟩ :=
        ih (by omega) hnear hsharp (Nat.lt_of_lt_of_le hroot hle)
      exact ⟨root, hnext.trans hfound, hval⟩

theorem exists_start (n : Count) :
    ∃ start : Count, Word.ofNat? (2 ^ (n.val.log2 / 2 + 1)) = some start ∧
      start.val = 2 ^ (n.val.log2 / 2 + 1) ∧ start.val ≤ 2 ^ 32 := by
  have hlog : n.val.log2 < 64 := by
    by_cases hzero : n.val = 0
    · rw [hzero, Nat.log2_zero]
      decide
    · exact (Nat.log2_lt hzero).2 n.isLt
  have hle : 2 ^ (n.val.log2 / 2 + 1) ≤ 2 ^ 32 := Nat.pow_le_pow_right Nat.two_pos (by omega)
  exact ⟨⟨2 ^ (n.val.log2 / 2 + 1), Nat.lt_of_le_of_lt hle (by decide)⟩,
    Word.ofNat?_eq_some_iff.2 rfl, rfl, hle⟩

/-- On words of 64 bits the square root is found in seven turns, with no division by zero and no sum
beyond the width. -/
theorem isqrtWithin?_seven (n : Count) :
    ∃ root, isqrtWithin? 7 n = some root ∧ root.val = isqrt n.val ∧ root.val ^ 2 ≤ n.val ∧
      n.val < (root.val + 1) ^ 2 := by
  suffices hfound : ∃ root, isqrtWithin? 7 n = some root ∧ root.val = n.val.sqrt by
    obtain ⟨root, hroot, hval⟩ := hfound
    refine ⟨root, hroot, hval.trans (isqrt_eq_sqrt n.val).symm, ?_, ?_⟩
    · rw [hval]
      exact Nat.sqrt_le' n.val
    · rw [hval]
      exact Nat.lt_succ_sqrt' n.val
  by_cases hsmall : n < 2
  · refine ⟨n, if_pos hsmall, ?_⟩
    rw [← isqrt_eq_sqrt]
    exact (if_pos hsmall).symm
  · have hn : 0 < n.val := Nat.lt_of_lt_of_le Nat.two_pos (Nat.le_of_not_lt hsmall)
    obtain ⟨start, hstart, hval, hle⟩ := exists_start n
    have hnear : NearRoot (sharpness 0) n.val start.val := hval ▸ nearRoot_start hn
    have hsharp : n.val.sqrt < sharpness (0 + 5) := by
      have hroot : n.val.sqrt ≤ start.val := hnear.sqrt_le
      exact Nat.lt_of_le_of_lt (hroot.trans hle) (by decide)
    obtain ⟨root, hfound, hroot⟩ := newtonWithin?_of_near hn hle hnear hsharp
    refine ⟨root, ?_, hroot⟩
    rw [isqrtWithin?, if_neg hsmall, hstart]
    exact hfound

/-- For some numbers the seventh turn is needed. -/
example : isqrtWithin? 6 290202858310811208 = none := by decide

end words

end Settlement
