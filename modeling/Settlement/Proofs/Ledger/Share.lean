import Mathlib.Algebra.Ring.Nat
import Settlement.Ledger.Claim
import Settlement.Proofs.Result
import Settlement.Proofs.Word

namespace Settlement

/-- The sum of amounts as natural numbers, which is exact whether or not there is a word for it. -/
def amountSum (amounts : List Amount) : Nat := (amounts.map Word.val).sum

@[simp] theorem amountSum_nil : amountSum [] = 0 := rfl

@[simp] theorem amountSum_cons (amount : Amount) (rest : List Amount) :
    amountSum (amount :: rest) = amount.val + amountSum rest := by
  simp [amountSum]

@[simp] theorem amountSum_append (first second : List Amount) :
    amountSum (first ++ second) = amountSum first + amountSum second := by
  simp [amountSum]

namespace Ledger

variable {amounts losses : List Amount} {shortfall total assigned : Amount}

/-- The running sum is given exactly if all of it is within the width. -/
private theorem foldlM_add?_eq_some_iff {acc : Amount} :
    amounts.foldlM Word.add? acc = some total ↔ acc.val + amountSum amounts = total.val := by
  induction amounts generalizing acc with
  | nil => exact Option.some_inj.trans Word.ext_iff
  | cons amount rest ih =>
    rw [List.foldlM_cons, amountSum_cons]
    constructor
    · intro h
      obtain ⟨next, hnext, hrest⟩ := Option.bind_eq_some_iff.1 h
      rw [Word.add?_eq_some_iff] at hnext
      rw [← ih.1 hrest]
      omega
    · intro hsum
      have := total.isLt
      refine Option.bind_eq_some_iff.2 ⟨acc.satAdd amount, Word.add?_of_lt (by omega), ih.2 ?_⟩
      rw [Word.val_satAdd_of_lt (by omega)]
      omega

theorem sum?_eq_some_iff : sum? amounts = some total ↔ amountSum amounts = total.val := by
  rw [sum?, foldlM_add?_eq_some_iff, Word.val_zero, Nat.zero_add]

private theorem val_foldl_satAdd {acc : Amount} (h : acc.val + amountSum amounts < 2 ^ 128) :
    (amounts.foldl Word.satAdd acc).val = acc.val + amountSum amounts := by
  induction amounts generalizing acc with
  | nil => rfl
  | cons amount rest ih =>
    rw [amountSum_cons] at h
    have hnext : (acc.satAdd amount).val = acc.val + amount.val :=
      Word.val_satAdd_of_lt (by omega)
    rw [List.foldl_cons, ih (by omega), hnext, amountSum_cons]
    omega

/-- Where the sum is known to be within the width, the saturating sum is the checked one. -/
theorem foldl_satAdd_eq (h : amountSum amounts = total.val) :
    amounts.foldl Word.satAdd 0 = total := by
  have := total.isLt
  apply Word.ext
  rw [val_foldl_satAdd (by rw [Word.val_zero]; omega), Word.val_zero, h, Nat.zero_add]

/-- The share of each amount in the loss, rounded down. All but the last are given away like
this. -/
def floorShares (shortfall total : Amount) (amounts : List Amount) : List Nat :=
  amounts.map fun amount => shortfall.val * amount.val / total.val

private theorem greatest_one (h : 0 < total.val) : total.greatest 1 = total := by
  have hone : (1 : Amount).val = 1 := rfl
  unfold Word.greatest
  split
  · next hle =>
    apply Word.ext
    rw [Word.le_def] at hle
    omega
  · rfl

/-- The shares of the amounts that are still to come, when what they and the shares given away stand
for is within the total. The last amount takes what is left, which is never negative. -/
private theorem apportionFrom_eq_ok (assigned : Amount) (hne : amounts ≠ [])
    (h : apportionFrom shortfall total assigned amounts = .ok losses) (hpos : 0 < total.val)
    (hwithin : assigned.val * total.val + shortfall.val * amountSum amounts ≤
      shortfall.val * total.val) :
    losses.map Word.val = floorShares shortfall total amounts.dropLast ++
        [shortfall.val - (assigned.val + (floorShares shortfall total amounts.dropLast).sum)] ∧
      assigned.val + (floorShares shortfall total amounts.dropLast).sum ≤ shortfall.val := by
  induction amounts generalizing assigned losses with
  | nil => exact absurd rfl hne
  | cons amount rest ih =>
    cases rest with
    | nil =>
      cases h
      have hle : assigned.val * total.val ≤ shortfall.val * total.val := by omega
      have hassigned := Nat.le_of_mul_le_mul_right hle hpos
      refine ⟨rfl, ?_⟩
      simpa [floorShares] using hassigned
    | cons next rest =>
      rw [apportionFrom] at h
      · obtain ⟨product, hproduct, h⟩ := Result.bind_eq_ok_iff.1 h
        obtain ⟨others, hothers, h⟩ := Result.bind_eq_ok_iff.1 h
        cases h
        rw [orRefuse_eq_ok_iff, Word.mul?_eq_some_iff] at hproduct
        rw [greatest_one hpos] at hothers
        have hloss : (product.quot total).val = shortfall.val * amount.val / total.val := by
          rw [Word.val_quot, hproduct]
        rw [amountSum_cons, Nat.mul_add] at hwithin
        have hshare : (product.quot total).val * total.val ≤ shortfall.val * amount.val := by
          rw [hloss]
          exact Nat.div_mul_le_self _ _
        have hgiven : (assigned.val + (product.quot total).val) * total.val ≤
            shortfall.val * total.val := by
          rw [Nat.add_mul]
          omega
        have hnext : (assigned.satAdd (product.quot total)).val =
            assigned.val + (product.quot total).val := by
          have hle := Nat.le_of_mul_le_mul_right hgiven hpos
          have := shortfall.isLt
          exact Word.val_satAdd_of_lt (by omega)
        obtain ⟨hvalues, hbound⟩ := ih (assigned.satAdd (product.quot total)) (by simp) hothers (by
          rw [hnext, Nat.add_mul]
          omega)
        rw [hnext, hloss] at hvalues hbound
        have hdrop : floorShares shortfall total (amount :: next :: rest).dropLast =
            shortfall.val * amount.val / total.val ::
              floorShares shortfall total (next :: rest).dropLast := rfl
        rw [greatest_one hpos, List.map_cons, hvalues, hdrop, List.sum_cons, hloss]
        refine ⟨?_, by omega⟩
        rw [List.cons_append, Nat.add_assoc]
      · simp

/-- The shares of a split are the rounded-down ones, except for the last, which is what those
leave. -/
theorem apportion_eq_ok (hne : amounts ≠ []) (hsum : amountSum amounts = total.val)
    (hpos : 0 < total.val) (h : apportion shortfall amounts total = .ok losses) :
    losses.map Word.val = floorShares shortfall total amounts.dropLast ++
        [shortfall.val - (floorShares shortfall total amounts.dropLast).sum] ∧
      (floorShares shortfall total amounts.dropLast).sum ≤ shortfall.val := by
  have hsplit := apportionFrom_eq_ok 0 hne h hpos
    (Nat.le_of_eq (by rw [Word.val_zero, Nat.zero_mul, Nat.zero_add, hsum]))
  simpa only [Word.val_zero, Nat.zero_add] using hsplit

/-- Every product that a split divides is within the width. The last amount is not multiplied. -/
def Splittable (shortfall : Amount) (amounts : List Amount) : Prop :=
  ∀ amount ∈ amounts.dropLast, shortfall.val * amount.val < 2 ^ 128

instance : Decidable (Splittable shortfall amounts) := List.decidableBAll _ amounts.dropLast

theorem splittable_of_singleton (shortfall amount : Amount) :
    Splittable shortfall [amount] := fun _ hmem => absurd hmem List.not_mem_nil

private theorem splittable_cons_iff {amount next : Amount} {rest : List Amount} :
    Splittable shortfall (amount :: next :: rest) ↔
      shortfall.val * amount.val < 2 ^ 128 ∧ Splittable shortfall (next :: rest) := by
  rw [Splittable, List.dropLast_cons_cons, List.forall_mem_cons]
  rfl

/-- Whether a split fails does not depend on what was given away before. A share is computed from a
product, so it fails when the product is too large, although the shares never are. -/
private theorem exists_apportionFrom_iff {assigned : Amount} :
    (∃ losses, apportionFrom shortfall total assigned amounts = .ok losses) ↔
      Splittable shortfall amounts := by
  induction amounts generalizing assigned with
  | nil => exact ⟨fun _ _ hmem => absurd hmem List.not_mem_nil, fun _ => ⟨[], rfl⟩⟩
  | cons amount rest ih =>
    cases rest with
    | nil => exact ⟨fun _ => splittable_of_singleton shortfall amount, fun _ => ⟨_, rfl⟩⟩
    | cons next rest =>
      rw [splittable_cons_iff, apportionFrom]
      · constructor
        · rintro ⟨losses, h⟩
          obtain ⟨product, hproduct, h⟩ := Result.bind_eq_ok_iff.1 h
          obtain ⟨others, hothers, -⟩ := Result.bind_eq_ok_iff.1 h
          rw [orRefuse_eq_ok_iff, Word.mul?_eq_some_iff] at hproduct
          refine ⟨?_, ih.1 ⟨others, hothers⟩⟩
          rw [hproduct]
          exact product.isLt
        · rintro ⟨hfits, hrest⟩
          obtain ⟨product, hproduct⟩ : ∃ product, shortfall.mul? amount = some product :=
            ⟨⟨_, hfits⟩, Word.mul?_eq_some_iff.2 rfl⟩
          obtain ⟨others, hothers⟩ := ih.2 hrest
          exact ⟨_, Result.bind_eq_ok_iff.2 ⟨product, orRefuse_eq_ok_iff.2 hproduct,
            Result.bind_eq_ok_iff.2 ⟨others, hothers, rfl⟩⟩⟩
      · simp

private theorem apportionFrom_eq_error {assigned : Amount} {e : Error}
    (h : apportionFrom shortfall total assigned amounts = .error e) :
    e = .overflow "claim batch apportion" := by
  induction amounts generalizing assigned with
  | nil => cases h
  | cons amount rest ih =>
    cases rest with
    | nil => cases h
    | cons next rest =>
      rw [apportionFrom] at h
      · obtain hproduct | ⟨product, -, h⟩ := Result.bind_eq_error_iff.1 h
        · exact (Result.orRefuse_eq_error_iff.1 hproduct).2.symm
        · obtain hrest | ⟨others, -, hpure⟩ := Result.bind_eq_error_iff.1 h
          · exact ih hrest
          · cases hpure
      · simp

/-- A loss can be split exactly if none of the products exceeds the width. -/
theorem exists_apportion_iff :
    (∃ losses, apportion shortfall amounts total = .ok losses) ↔ Splittable shortfall amounts :=
  exists_apportionFrom_iff

theorem apportion_of_not_splittable (h : ¬ Splittable shortfall amounts) (total : Amount) :
    apportion shortfall amounts total = .error (.overflow "claim batch apportion") := by
  cases hsplit : apportion shortfall amounts total with
  | ok losses => exact absurd (exists_apportion_iff.1 ⟨losses, hsplit⟩) h
  | error e => rw [apportionFrom_eq_error hsplit]

theorem length_of_apportion (hne : amounts ≠ []) (hsum : amountSum amounts = total.val)
    (hpos : 0 < total.val) (h : apportion shortfall amounts total = .ok losses) :
    losses.length = amounts.length := by
  have hlength := congrArg List.length (apportion_eq_ok hne hsum hpos h).1
  have := List.length_pos_iff.2 hne
  rw [List.length_map, List.length_append, floorShares, List.length_map, List.length_dropLast,
    List.length_singleton] at hlength
  omega

/-- The shares add up to the loss, since the last of them is what the others leave. -/
theorem amountSum_of_apportion (hne : amounts ≠ []) (hsum : amountSum amounts = total.val)
    (hpos : 0 < total.val) (h : apportion shortfall amounts total = .ok losses) :
    amountSum losses = shortfall.val := by
  obtain ⟨hvalues, hbound⟩ := apportion_eq_ok hne hsum hpos h
  rw [amountSum, hvalues, List.sum_append, List.sum_singleton]
  omega

private theorem floorShares_bounds (shortfall : Amount) (hpos : 0 < total.val)
    (amounts : List Amount) :
    (floorShares shortfall total amounts).sum * total.val ≤ shortfall.val * amountSum amounts ∧
      shortfall.val * amountSum amounts + amounts.length ≤
        ((floorShares shortfall total amounts).sum + amounts.length) * total.val := by
  induction amounts with
  | nil => exact ⟨Nat.le_of_eq (Nat.zero_mul _), Nat.zero_le _⟩
  | cons amount rest ih =>
    have hbelow := Nat.div_mul_le_self (shortfall.val * amount.val) total.val
    have habove : shortfall.val * amount.val <
        shortfall.val * amount.val / total.val * total.val + total.val := Nat.lt_div_mul_add hpos
    have hcons : (floorShares shortfall total (amount :: rest)).sum =
        shortfall.val * amount.val / total.val + (floorShares shortfall total rest).sum := rfl
    rw [hcons, amountSum_cons, List.length_cons, Nat.mul_add, Nat.add_mul, Nat.add_mul,
      Nat.add_mul, Nat.succ_mul]
    rw [Nat.add_mul] at ih
    omega

/-- The shares of all amounts rounded down are no more than the loss, and leave less than one of it
for each amount. -/
theorem sum_floorShares_mem (shortfall : Amount) (hne : amounts ≠ [])
    (hsum : amountSum amounts = total.val) (hpos : 0 < total.val) :
    (floorShares shortfall total amounts).sum ≤ shortfall.val ∧
      shortfall.val < (floorShares shortfall total amounts).sum + amounts.length := by
  obtain ⟨hbelow, habove⟩ := floorShares_bounds shortfall hpos amounts
  have hlength := List.length_pos_iff.2 hne
  rw [hsum] at hbelow habove
  exact ⟨Nat.le_of_mul_le_mul_right hbelow hpos,
    Nat.lt_of_mul_lt_mul_right (a := total.val) (by omega)⟩

theorem sum_floorShares_eq (shortfall total : Amount) (hne : amounts ≠ []) :
    (floorShares shortfall total amounts).sum =
      (floorShares shortfall total amounts.dropLast).sum +
        shortfall.val * (amounts.getLast hne).val / total.val := by
  calc (floorShares shortfall total amounts).sum
      = (floorShares shortfall total (amounts.dropLast ++ [amounts.getLast hne])).sum := by
        rw [List.dropLast_concat_getLast]
    _ = _ := by simp [floorShares]

/-- A split fails exactly when the product of the loss with an amount other than the last leaves the
width. Otherwise each amount has a share; the shares add up to the loss, all but the last are
rounded down, and the last is less than one for each amount above its own share rounded down. -/
theorem apportion_exact (shortfall : Amount) (hne : amounts ≠ [])
    (hsum : amountSum amounts = total.val) (hpos : 0 < total.val) :
    ((∃ e, apportion shortfall amounts total = .error e) ↔
        ∃ amount ∈ amounts.dropLast, 2 ^ 128 ≤ shortfall.val * amount.val) ∧
      ((∀ amount ∈ amounts.dropLast, shortfall.val * amount.val < 2 ^ 128) →
        ∃ others last, apportion shortfall amounts total = .ok (others ++ [last]) ∧
          (others ++ [last]).length = amounts.length ∧
          others.map Word.val = floorShares shortfall total amounts.dropLast ∧
          amountSum (others ++ [last]) = shortfall.val ∧
          shortfall.val * (amounts.getLast hne).val / total.val ≤ last.val ∧
          last.val ≤ shortfall.val * (amounts.getLast hne).val / total.val +
            (amounts.length - 1)) := by
  constructor
  · have hover : (∃ amount ∈ amounts.dropLast, 2 ^ 128 ≤ shortfall.val * amount.val) ↔
        ¬ Splittable shortfall amounts := by
      simp only [Splittable, not_forall, Nat.not_lt, exists_prop]
    rw [hover]
    constructor
    · rintro ⟨e, herror⟩ hsplittable
      obtain ⟨losses, hok⟩ := exists_apportion_iff.2 hsplittable
      rw [herror] at hok
      cases hok
    · exact fun hnot => ⟨_, apportion_of_not_splittable hnot total⟩
  · intro hsplittable
    obtain ⟨losses, hok⟩ := exists_apportion_iff.2 hsplittable
    obtain ⟨hvalues, hbound⟩ := apportion_eq_ok hne hsum hpos hok
    obtain ⟨others, rest, rfl, hothers, hrest⟩ := List.map_eq_append_iff.1 hvalues
    obtain ⟨last, rfl, hlast⟩ := List.map_eq_singleton_iff.1 hrest
    obtain ⟨hbelow, habove⟩ := sum_floorShares_mem shortfall hne hsum hpos
    rw [sum_floorShares_eq shortfall total hne] at hbelow habove
    refine ⟨others, last, hok, length_of_apportion hne hsum hpos hok, hothers,
      amountSum_of_apportion hne hsum hpos hok, ?_, ?_⟩
    · omega
    · omega

/-- Two are lost of three claims of one each. The shares of the first two are rounded down to
nothing, and the last one is as large as it can be. -/
theorem apportion_exact_of_thirds :
    amountSum [1, 1, 1] = (3 : Amount).val ∧ 0 < (3 : Amount).val ∧
      (∀ amount ∈ ([1, 1, 1] : List Amount).dropLast, (2 : Amount).val * amount.val < 2 ^ 128) ∧
      apportion 2 [1, 1, 1] 3 = .ok [0, 0, 2] := by
  have hne : ([1, 1, 1] : List Amount) ≠ [] := by decide
  have htotal : amountSum [1, 1, 1] = (3 : Amount).val := rfl
  have hproducts : Splittable 2 [1, 1, 1] := by decide
  obtain ⟨-, hsplit⟩ := apportion_exact 2 hne htotal (by decide)
  obtain ⟨others, last, hok, -, hothers, hsum, -, -⟩ := hsplit hproducts
  have hvalues : others.map Word.val = ([0, 0] : List Amount).map Word.val := hothers
  obtain rfl := (List.map_inj_right fun _ _ => Word.ext).1 hvalues
  have hlast : last = 2 := by
    apply Word.ext
    simpa using hsum
  exact ⟨htotal, by decide, hproducts, hlast ▸ hok⟩

theorem apportion_zero (amounts : List Amount) (total : Amount) :
    apportion 0 amounts total = .ok (amounts.map fun _ => 0) := by
  unfold apportion
  induction amounts with
  | nil => rfl
  | cons amount rest ih =>
    cases rest with
    | nil => rfl
    | cons next rest =>
      have hproduct : (0 : Amount).mul? amount = some 0 := by
        rw [Word.mul?_eq_some_iff, Word.val_zero, Nat.zero_mul]
      have hloss : (0 : Amount).quot (total.greatest 1) = 0 := by
        apply Word.ext
        rw [Word.val_quot, Word.val_zero, Nat.zero_div]
      have hassigned : (0 : Amount).satAdd 0 = 0 := rfl
      rw [apportionFrom]
      · simp only [hproduct, orRefuse, Result.ok_bind, hloss, hassigned, ih]
        rfl
      · simp

private theorem length_lastTakesAll (hne : amounts ≠ []) :
    (lastTakesAll shortfall amounts).length = amounts.length := by
  cases amounts with
  | nil => exact absurd rfl hne
  | cons amount rest => simp [lastTakesAll]

private theorem amountSum_lastTakesAll (hne : amounts ≠ []) :
    amountSum (lastTakesAll shortfall amounts) = shortfall.val := by
  cases amounts with
  | nil => exact absurd rfl hne
  | cons amount rest =>
    have hzeros : amountSum (rest.map fun _ => (0 : Amount)) = 0 := by
      induction rest with
      | nil => rfl
      | cons _ rest ih => rw [List.map_cons, amountSum_cons, ih (by simp), Word.val_zero]
    change amountSum (rest.map (fun _ => (0 : Amount)) ++ [shortfall]) = shortfall.val
    rw [amountSum_append, hzeros, amountSum_cons, amountSum_nil, Nat.zero_add, Nat.add_zero]

/-- The losses of a payout that the token does not take back. If the loss cannot be split, the last
claim bears all of it. -/
def shares (shortfall : Amount) (amounts : List Amount) : List Amount :=
  match apportion shortfall amounts (amounts.foldl Word.satAdd 0) with
  | .ok losses => losses
  | .error _ => lastTakesAll shortfall amounts

theorem shares_of_apportion (hsum : amountSum amounts = total.val)
    (h : apportion shortfall amounts total = .ok losses) : shares shortfall amounts = losses := by
  unfold shares
  rw [foldl_satAdd_eq hsum, h]

theorem length_shares (shortfall : Amount) (hne : amounts ≠ [])
    (hsum : amountSum amounts = total.val) (hpos : 0 < total.val) :
    (shares shortfall amounts).length = amounts.length := by
  unfold shares
  rw [foldl_satAdd_eq hsum]
  split
  · next h => exact length_of_apportion hne hsum hpos h
  · exact length_lastTakesAll hne

theorem amountSum_shares (shortfall : Amount) (hne : amounts ≠ [])
    (hsum : amountSum amounts = total.val) (hpos : 0 < total.val) :
    amountSum (shares shortfall amounts) = shortfall.val := by
  unfold shares
  rw [foldl_satAdd_eq hsum]
  split
  · next h => exact amountSum_of_apportion hne hsum hpos h
  · exact amountSum_lastTakesAll hne

end Ledger

end Settlement
