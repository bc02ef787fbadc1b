namespace Settlement

-- The power that a width is written with is the one of the naturals themselves, also in a module that
-- knows the power of a monoid.
attribute [local instance (high)] instPowNat

/-- A natural number below `2 ^ w`. Nothing here wraps around: a sum or a product is checked or held
at the largest word, so every statement about a word is one about the natural number that it
holds. -/
structure Word (w : Nat) where
  val : Nat
  isLt : val < 2 ^ w
deriving DecidableEq

namespace Word

variable {w : Nat}

theorem ext {a b : Word w} (h : a.val = b.val) : a = b := by
  cases a; cases b; cases h; rfl

theorem ext_iff {a b : Word w} : a = b ↔ a.val = b.val :=
  ⟨fun h => h ▸ rfl, ext⟩

/-- The number itself, when it is within the width. Checked sums and products go through it. -/
def ofNat? (n : Nat) : Option (Word w) :=
  if h : n < 2 ^ w then some ⟨n, h⟩ else none

/-- The largest word. -/
def top : Word w := ⟨2 ^ w - 1, Nat.sub_lt (Nat.two_pow_pos w) Nat.one_pos⟩

/-- The number itself, or the largest word when it is beyond the width. Saturating sums and products
go through it. -/
def clamp (n : Nat) : Word w :=
  if h : n < 2 ^ w then ⟨n, h⟩ else top

/-- Literals are read modulo the width; those in this library are all within it. -/
instance (n : Nat) : OfNat (Word w) n := ⟨⟨n % 2 ^ w, Nat.mod_lt _ (Nat.two_pow_pos w)⟩⟩

instance : Inhabited (Word w) := ⟨0⟩

instance : LE (Word w) := ⟨fun a b => a.val ≤ b.val⟩

instance : LT (Word w) := ⟨fun a b => a.val < b.val⟩

instance (a b : Word w) : Decidable (a ≤ b) := inferInstanceAs (Decidable (a.val ≤ b.val))

instance (a b : Word w) : Decidable (a < b) := inferInstanceAs (Decidable (a.val < b.val))

theorem le_def {a b : Word w} : a ≤ b ↔ a.val ≤ b.val := Iff.rfl

theorem lt_def {a b : Word w} : a < b ↔ a.val < b.val := Iff.rfl

/-- The sum, unless it leaves the width. Amounts are added like this wherever a sum that is too
large has to be refused. -/
def add? (a b : Word w) : Option (Word w) := ofNat? (a.val + b.val)

/-- The product, unless it leaves the width. Shares of a loss are computed from such products. -/
def mul? (a b : Word w) : Option (Word w) := ofNat? (a.val * b.val)

/-- The difference, unless it is negative. Money is taken away like this wherever too little of it
has to be refused. -/
def sub? (a b : Word w) : Option (Word w) :=
  if b.val ≤ a.val then some ⟨a.val - b.val, Nat.lt_of_le_of_lt (Nat.sub_le _ _) a.isLt⟩ else none

/-- The next number, unless there is none of this width. Periods are numbered with it. -/
def succ? (a : Word w) : Option (Word w) := ofNat? (a.val + 1)

/-- The sum, held at the largest word. It is exact where the sum is within the width. -/
def satAdd (a b : Word w) : Word w := clamp (a.val + b.val)

/-- The product, held at the largest word. It is exact where the product is within the width. -/
def satMul (a b : Word w) : Word w := clamp (a.val * b.val)

/-- The difference, held at zero. It is exact where the second word is not larger. -/
def satSub (a b : Word w) : Word w :=
  ⟨a.val - b.val, Nat.lt_of_le_of_lt (Nat.sub_le _ _) a.isLt⟩

/-- The quotient rounded down; a zero divisor gives zero, which callers exclude. -/
def quot (a b : Word w) : Word w :=
  ⟨a.val / b.val, Nat.lt_of_le_of_lt (Nat.div_le_self _ _) a.isLt⟩

/-- The quotient rounded down, unless the divisor is zero, which has no quotient. -/
def div? (a b : Word w) : Option (Word w) := if b = 0 then none else some (a.quot b)

/-- The smaller of two words. -/
def least (a b : Word w) : Word w := if a ≤ b then a else b

/-- The larger of two words. -/
def greatest (a b : Word w) : Word w := if a ≤ b then b else a

@[simp] theorem val_zero : (0 : Word w).val = 0 := Nat.zero_mod _

@[simp] theorem val_satSub (a b : Word w) : (a.satSub b).val = a.val - b.val := rfl

@[simp] theorem val_quot (a b : Word w) : (a.quot b).val = a.val / b.val := rfl

theorem val_top : (top : Word w).val = 2 ^ w - 1 := rfl

theorem val_clamp (n : Nat) : (clamp n : Word w).val = min n (2 ^ w - 1) := by
  have := Nat.two_pow_pos w
  by_cases h : n < 2 ^ w <;> simp [clamp, h, val_top] <;> omega

theorem ofNat?_eq_some_iff {n : Nat} {a : Word w} : ofNat? n = some a ↔ n = a.val := by
  constructor
  · intro h
    by_cases hn : n < 2 ^ w
    · simp only [ofNat?, hn, dite_true, Option.some.injEq] at h
      exact h ▸ rfl
    · simp [ofNat?, hn] at h
  · rintro rfl
    simp [ofNat?, a.isLt]

theorem ofNat?_eq_none_iff {n : Nat} : (ofNat? n : Option (Word w)) = none ↔ 2 ^ w ≤ n := by
  by_cases h : n < 2 ^ w
  · simp [ofNat?, h]
  · simp [ofNat?, h, Nat.le_of_not_lt h]

theorem add?_eq_some_iff {a b c : Word w} : a.add? b = some c ↔ a.val + b.val = c.val :=
  ofNat?_eq_some_iff

theorem mul?_eq_some_iff {a b c : Word w} : a.mul? b = some c ↔ a.val * b.val = c.val :=
  ofNat?_eq_some_iff

theorem val_satAdd (a b : Word w) : (a.satAdd b).val = min (a.val + b.val) (2 ^ w - 1) :=
  val_clamp _

end Word

/-- An amount of tokens, in their smallest unit. -/
abbrev Amount := Word 128

/-- A count, an index or a size, in 64 bits. -/
abbrev Count := Word 64

end Settlement
