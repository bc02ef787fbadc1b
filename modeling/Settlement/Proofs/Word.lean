import Mathlib.Algebra.Group.Nat.Defs
import Settlement.Number.Word

namespace Settlement.Word

variable {w : Nat}

theorem val_eq_zero_iff {a : Word w} : a.val = 0 ↔ a = 0 := by
  rw [ext_iff, val_zero]

theorem pos_of_ne_zero {a : Word w} (h : a ≠ 0) : 0 < a.val :=
  Nat.pos_of_ne_zero fun hzero => h (val_eq_zero_iff.1 hzero)

theorem add?_eq_none_iff {a b : Word w} : a.add? b = none ↔ 2 ^ w ≤ a.val + b.val :=
  ofNat?_eq_none_iff

theorem add?_of_lt {a b : Word w} (h : a.val + b.val < 2 ^ w) : a.add? b = some (a.satAdd b) := by
  rw [add?_eq_some_iff, val_satAdd]
  omega

theorem add?_zero (a : Word w) : a.add? 0 = some a := by
  rw [add?_eq_some_iff, val_zero, Nat.add_zero]

theorem val_satAdd_of_lt {a b : Word w} (h : a.val + b.val < 2 ^ w) :
    (a.satAdd b).val = a.val + b.val := by
  rw [val_satAdd]
  omega

theorem val_satAdd_one {a : Word w} (h : a.val + 1 < 2 ^ w) : (a.satAdd 1).val = a.val + 1 := by
  have hone : (1 : Word w).val = 1 := Nat.mod_eq_of_lt (Nat.lt_of_le_of_lt (Nat.le_add_left 1 _) h)
  rw [val_satAdd_of_lt (by rw [hone]; exact h), hone]

theorem satAdd_one_ne_zero {a : Word w} (h : a.val + 1 < 2 ^ w) : a.satAdd 1 ≠ 0 := by
  rw [ne_eq, ← val_eq_zero_iff, val_satAdd_one h]
  exact Nat.succ_ne_zero _

theorem satSub_satAdd {a b : Word w} (h : a.val + b.val < 2 ^ w) : (a.satAdd b).satSub b = a := by
  apply ext
  rw [val_satSub, val_satAdd_of_lt h]
  omega

theorem le_of_not_le {a b : Word w} (h : ¬ a ≤ b) : b ≤ a := Nat.le_of_not_le h

theorem le_antisymm {a b : Word w} (hab : a ≤ b) (hba : b ≤ a) : a = b :=
  ext (Nat.le_antisymm hab hba)

theorem least_comm (a b : Word w) : least a b = least b a := by
  unfold least
  by_cases hab : a ≤ b
  · by_cases hba : b ≤ a
    · rw [if_pos hab, if_pos hba, le_antisymm hab hba]
    · rw [if_pos hab, if_neg hba]
  · rw [if_neg hab, if_pos (le_of_not_le hab)]

theorem greatest_comm (a b : Word w) : greatest a b = greatest b a := by
  unfold greatest
  by_cases hab : a ≤ b
  · by_cases hba : b ≤ a
    · rw [if_pos hab, if_pos hba, le_antisymm hab hba]
    · rw [if_pos hab, if_neg hba]
  · rw [if_neg hab, if_pos (le_of_not_le hab)]

/-- Two words are determined by the smaller and the larger of them, up to their order: sorting two
words forgets their order and nothing else. -/
theorem least_greatest_inj {a b c d : Word w} :
    least a b = least c d ∧ greatest a b = greatest c d ↔ a = c ∧ b = d ∨ a = d ∧ b = c := by
  constructor
  · rintro ⟨hleast, hgreatest⟩
    unfold least at hleast
    unfold greatest at hgreatest
    by_cases hab : a ≤ b <;> by_cases hcd : c ≤ d
    · rw [if_pos hab, if_pos hcd] at hleast hgreatest
      exact .inl ⟨hleast, hgreatest⟩
    · rw [if_pos hab, if_neg hcd] at hleast hgreatest
      exact .inr ⟨hleast, hgreatest⟩
    · rw [if_neg hab, if_pos hcd] at hleast hgreatest
      exact .inr ⟨hgreatest, hleast⟩
    · rw [if_neg hab, if_neg hcd] at hleast hgreatest
      exact .inl ⟨hgreatest, hleast⟩
  · rintro (⟨rfl, rfl⟩ | ⟨rfl, rfl⟩)
    · exact ⟨rfl, rfl⟩
    · exact ⟨least_comm a b, greatest_comm a b⟩

end Settlement.Word
