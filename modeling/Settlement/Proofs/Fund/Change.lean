import Settlement.Fund
import Settlement.Proofs.Result
import Settlement.Proofs.Table
import Settlement.Proofs.Word

namespace Settlement

namespace PeriodFund

/-- An amount is claimed. Each operation on the book changes one row by a function of that row, such
as this one. -/
def charge (amount : Amount) (f : PeriodFund) : PeriodFund :=
  { f with claimed := f.claimed.satAdd amount }

/-- The fund after an amount is not claimed after all, as when a payout is called off. -/
def refund (amount : Amount) (f : PeriodFund) : PeriodFund :=
  { f with claimed := f.claimed.satSub amount }

/-- The fund after a loss is counted in it. A loss for which there is no room is not counted. -/
def bear (loss : Amount) (f : PeriodFund) : PeriodFund :=
  { f with precisionLoss := (f.precisionLoss.add? loss).getD f.precisionLoss }

/-- The fund after a loss is taken back, as when a payout is called off after its losses were
counted. -/
def forgive (loss : Amount) (f : PeriodFund) : PeriodFund :=
  { f with precisionLoss := f.precisionLoss.satSub loss }

theorem refund_charge {f : PeriodFund} {amount : Amount}
    (h : f.claimed.val + amount.val < 2 ^ 128) : (f.charge amount).refund amount = f := by
  simp [charge, refund, Word.satSub_satAdd h]

theorem forgive_bear {f : PeriodFund} {loss : Amount}
    (h : f.precisionLoss.val + loss.val < 2 ^ 128) : (f.bear loss).forgive loss = f := by
  simp [bear, forgive, Word.add?_of_lt h, Word.satSub_satAdd h]

theorem bear_of_no_room {f : PeriodFund} {loss : Amount}
    (h : 2 ^ 128 ≤ f.precisionLoss.val + loss.val) : f.bear loss = f := by
  simp [bear, Word.add?_eq_none_iff.2 h]

theorem bear_zero (f : PeriodFund) : f.bear 0 = f := by
  simp [bear, Word.add?_zero]

theorem val_precisionLoss_bear (f : PeriodFund) (loss : Amount) :
    (f.bear loss).precisionLoss.val =
      if f.precisionLoss.val + loss.val < 2 ^ 128 then f.precisionLoss.val + loss.val
      else f.precisionLoss.val := by
  split
  · next h => simp [bear, Word.add?_of_lt h, Word.val_satAdd_of_lt h]
  · next h => rw [bear_of_no_room (Nat.le_of_not_lt h)]

end PeriodFund

namespace FundBook

theorem ext_get? {a b : FundBook} (h : ∀ p, a.get? p = b.get? p) : a = b := by
  cases a
  cases b
  exact congrArg FundBook.mk (Table.ext_get? h)

theorem fund_of_get? {b : FundBook} {p : PeriodId} {f : PeriodFund} (h : b.get? p = some f) :
    b.fund p = f := by
  change (b.get? p).getD {} = f
  rw [h, Option.getD_some]

theorem get?_set (b : FundBook) (p q : PeriodId) (f : PeriodFund) :
    (b.set p f).get? q = if q = p then some f else b.get? q :=
  Table.get?_insert b.funds p q f

theorem fund_set (b : FundBook) (p q : PeriodId) (f : PeriodFund) :
    (b.set p f).fund q = if q = p then f else b.fund q := by
  change ((b.set p f).get? q).getD {} = _
  rw [get?_set]
  split <;> rfl

theorem fund_set_self (b : FundBook) (p q : PeriodId) : (b.set p (b.fund p)).fund q = b.fund q := by
  rw [fund_set]
  split
  · next heq => rw [heq]
  · rfl

theorem column_set {b : FundBook} {p : PeriodId} {f : PeriodFund} (column : PeriodFund → Amount)
    (h : column f = column (b.fund p)) (q : PeriodId) :
    column ((b.set p f).fund q) = column (b.fund q) := by
  rw [fund_set]
  split
  · next heq => rw [heq, h]
  · rfl

theorem set_eq_self {b : FundBook} {p : PeriodId} {f : PeriodFund} (h : b.get? p = some f) :
    b.set p f = b := by
  cases b
  exact congrArg FundBook.mk (Table.insert_eq_self h)

theorem get?_modify (b : FundBook) (p q : PeriodId) (change : PeriodFund → PeriodFund) :
    (b.modify p change).get? q = if q = p then (b.get? p).map change else b.get? q := by
  unfold modify
  cases h : b.get? p with
  | none =>
    by_cases heq : q = p
    · simp [heq, h]
    · simp [heq]
  | some f => simp [get?_set]

theorem modify_of_get? {b : FundBook} {p : PeriodId} {f : PeriodFund}
    {change : PeriodFund → PeriodFund} (h : b.get? p = some f) :
    b.modify p change = b.set p (change f) := by
  simp [modify, h]

/-- One change per entry, each to the money of its period if that was ever touched. -/
def modifyAll {α : Type} (change : α → PeriodFund → PeriodFund) (b : FundBook)
    (entries : List (PeriodId × α)) : FundBook :=
  entries.foldl (fun b entry => b.modify entry.1 (change entry.2)) b

section modifyAll

variable {α : Type} {change undo : α → PeriodFund → PeriodFund} {entries : List (PeriodId × α)}
  {b : FundBook} {p : PeriodId}

theorem modifyAll_cons (entry : PeriodId × α) :
    modifyAll change b (entry :: entries) =
      modifyAll change (b.modify entry.1 (change entry.2)) entries := rfl

theorem modifyAll_append (done rest : List (PeriodId × α)) :
    modifyAll change b (done ++ rest) = modifyAll change (modifyAll change b done) rest :=
  List.foldl_append

theorem get?_modifyAll_of_not_mem (h : p ∉ entries.map Prod.fst) :
    (modifyAll change b entries).get? p = b.get? p := by
  induction entries generalizing b with
  | nil => rfl
  | cons entry rest ih =>
    simp only [List.map_cons, List.mem_cons, not_or] at h
    rw [modifyAll_cons, ih h.2, get?_modify, if_neg h.1]

/-- Several changes to different periods do not meet, so each row is changed by its own entry. -/
theorem get?_modifyAll_of_mem {a : α} (hnodup : (entries.map Prod.fst).Nodup)
    (hmem : (p, a) ∈ entries) :
    (modifyAll change b entries).get? p = (b.get? p).map (change a) := by
  induction entries generalizing b with
  | nil => cases hmem
  | cons entry rest ih =>
    simp only [List.map_cons, List.nodup_cons] at hnodup
    rw [modifyAll_cons]
    rcases List.mem_cons.1 hmem with rfl | hrest
    · rw [get?_modifyAll_of_not_mem hnodup.1, get?_modify, if_pos rfl]
    · have hne : p ≠ entry.1 := fun heq => hnodup.1 (heq ▸ List.mem_map_of_mem hrest)
      rw [ih hnodup.2 hrest, get?_modify, if_neg hne]

/-- Changes to different periods are taken back by taking back each of them, in any order. -/
theorem modifyAll_modifyAll_eq_self (hnodup : (entries.map Prod.fst).Nodup)
    (hundo : ∀ p a f, (p, a) ∈ entries → b.get? p = some f → undo a (change a f) = f) :
    modifyAll undo (modifyAll change b entries) entries = b := by
  apply ext_get?
  intro p
  by_cases hp : p ∈ entries.map Prod.fst
  · obtain ⟨⟨q, a⟩, hmem, rfl⟩ := List.mem_map.1 hp
    rw [get?_modifyAll_of_mem hnodup hmem, get?_modifyAll_of_mem hnodup hmem]
    cases hget : b.get? q with
    | none => rfl
    | some f => simp [hundo q a f hmem hget]
  · rw [get?_modifyAll_of_not_mem hp, get?_modifyAll_of_not_mem hp]

end modifyAll

end FundBook

end Settlement
