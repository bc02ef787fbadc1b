import Settlement.Ledger.Claim
import Settlement.Proofs.Fund.Operation

namespace Settlement

namespace FundBook

variable {b : FundBook} {p : PeriodId} {loss : Amount} {losses : List (PeriodId × Amount)}

theorem modify_bear_zero (b : FundBook) (p : PeriodId) : b.modify p (.bear 0) = b := by
  cases hget : b.get? p with
  | none => simp [modify, hget]
  | some f => rw [modify_of_get? hget, PeriodFund.bear_zero, set_eq_self hget]

theorem isSome_get?_modify (change : PeriodFund → PeriodFund) (q : PeriodId) :
    ((b.modify p change).get? q).isSome = (b.get? q).isSome := by
  rw [get?_modify]
  split
  · next h => rw [h, Option.isSome_map]
  · rfl

theorem recordPrecisionLoss_snd (hrow : (b.get? p).isSome = true) :
    (b.recordPrecisionLoss p loss).2 = b.modify p (.bear loss) := by
  obtain ⟨f, hget⟩ := Option.isSome_iff_exists.1 hrow
  by_cases hfits : f.precisionLoss.val + loss.val < 2 ^ 128
  · rw [recordPrecisionLoss_eq hget hfits]
  · have hfull := Nat.le_of_not_lt hfits
    rw [recordPrecisionLoss_eq_of_no_room hget hfull, modify_of_get? hget,
      PeriodFund.bear_of_no_room hfull, set_eq_self hget]

/-- There is room for every loss of a list, in the count of its own period. -/
def HasRoom (b : FundBook) (losses : List (PeriodId × Amount)) : Prop :=
  ∀ entry ∈ losses, (b.fund entry.1).precisionLoss.val + entry.2.val < 2 ^ 128

instance : Decidable (b.HasRoom losses) := List.decidableBAll _ losses

end FundBook

namespace Ledger

open FundBook

variable {b : FundBook} {losses done rest : List (PeriodId × Amount)}

theorem bookLosses_eq (hrows : ∀ entry ∈ losses, (b.get? entry.1).isSome = true) :
    bookLosses b losses = modifyAll PeriodFund.bear b losses := by
  induction losses generalizing b with
  | nil => rfl
  | cons entry rest ih =>
    obtain ⟨p, loss⟩ := entry
    have hstep : bookLosses b ((p, loss) :: rest) = bookLosses (b.modify p (.bear loss)) rest := by
      change bookLosses (if loss = 0 then b else (b.recordPrecisionLoss p loss).2) rest = _
      by_cases hzero : loss = 0
      · rw [if_pos hzero, hzero, modify_bear_zero]
      · rw [if_neg hzero, ← recordPrecisionLoss_snd (hrows _ (List.mem_cons_self ..))]
    rw [hstep, modifyAll_cons]
    apply ih
    intro entry hmem
    rw [isSome_get?_modify]
    exact hrows entry (List.mem_cons_of_mem _ hmem)

/-- A loss for which there is room is booked, and taken back if a later one is refused. -/
private theorem recordLosses_cons (p : PeriodId) (loss : Amount) {f : PeriodFund}
    (hget : b.get? p = some f) (hfits : f.precisionLoss.val + loss.val < 2 ^ 128) :
    recordLosses b done ((p, loss) :: rest) =
      recordLosses (b.modify p (.bear loss)) (done ++ [(p, loss)]) rest := by
  rw [recordLosses]
  by_cases hzero : loss = 0
  · rw [if_pos hzero, hzero, modify_bear_zero]
  · rw [if_neg hzero, recordPrecisionLoss_eq hget hfits]

theorem recordLosses_of_room (hnodup : (losses.map Prod.fst).Nodup)
    (hrows : ∀ entry ∈ losses, (b.get? entry.1).isSome = true) (hroom : b.HasRoom losses) :
    recordLosses b done losses = (.ok (), modifyAll PeriodFund.bear b losses) := by
  induction losses generalizing b done with
  | nil => rfl
  | cons entry rest ih =>
    obtain ⟨p, loss⟩ := entry
    obtain ⟨f, hget⟩ := Option.isSome_iff_exists.1 (hrows _ (List.mem_cons_self ..))
    have hfits := hroom _ (List.mem_cons_self ..)
    simp only [fund_of_get? hget] at hfits
    simp only [List.map_cons, List.nodup_cons] at hnodup
    have hother {entry : PeriodId × Amount} (hmem : entry ∈ rest) : entry.1 ≠ p := fun heq =>
      hnodup.1 (heq ▸ List.mem_map_of_mem hmem)
    rw [recordLosses_cons p loss hget hfits, modifyAll_cons]
    apply ih hnodup.2
    · intro entry hmem
      rw [isSome_get?_modify]
      exact hrows entry (List.mem_cons_of_mem _ hmem)
    · intro entry hmem
      have hfund : (b.modify p (.bear loss)).fund entry.1 = b.fund entry.1 := by
        change ((b.modify p (.bear loss)).get? entry.1).getD {} = _
        rw [get?_modify, if_neg (hother hmem)]
        rfl
      rw [hfund]
      exact hroom entry (List.mem_cons_of_mem _ hmem)

/-- When there is no room for one of the losses, those booked before it are taken back. The
induction goes over the losses still to come; those done are changes to other periods. -/
theorem recordLosses_of_no_room (hnodup : ((done ++ rest).map Prod.fst).Nodup)
    (hrows : ∀ entry ∈ done ++ rest, (b.get? entry.1).isSome = true) (hdone : b.HasRoom done)
    (hfull : ¬ b.HasRoom rest) :
    recordLosses (modifyAll PeriodFund.bear b done) done rest =
      (.error (.overflow "precision loss"), b) := by
  induction rest generalizing done with
  | nil => exact absurd (fun _ hmem => absurd hmem List.not_mem_nil) hfull
  | cons entry rest ih =>
    obtain ⟨p, loss⟩ := entry
    obtain ⟨f, hget⟩ := Option.isSome_iff_exists.1
      (hrows (p, loss) (List.mem_append_right _ (List.mem_cons_self ..)))
    have hfresh : p ∉ done.map Prod.fst := by
      rw [List.map_append, List.map_cons] at hnodup
      exact fun hmem => (List.nodup_append.1 hnodup).2.2 p hmem p (List.mem_cons_self ..) rfl
    have hnow : (modifyAll PeriodFund.bear b done).get? p = some f := by
      rw [get?_modifyAll_of_not_mem hfresh, hget]
    by_cases hfits : f.precisionLoss.val + loss.val < 2 ^ 128
    · have happend : done ++ (p, loss) :: rest = (done ++ [(p, loss)]) ++ rest := by simp
      rw [happend] at hnodup hrows
      rw [recordLosses_cons p loss hnow hfits]
      have hnext := ih hnodup hrows
        (fun entry hmem => by
          rcases List.mem_append.1 hmem with hmem | hmem
          · exact hdone entry hmem
          · rw [List.mem_singleton.1 hmem]
            simpa only [fund_of_get? hget] using hfits)
        (fun hroom => hfull fun entry hmem => by
          rcases List.mem_cons.1 hmem with rfl | hmem
          · simpa only [fund_of_get? hget] using hfits
          · exact hroom entry hmem)
      rw [modifyAll_append] at hnext
      exact hnext
    · have hno := Nat.le_of_not_lt hfits
      have hzero : loss ≠ 0 := by
        rintro rfl
        have := f.precisionLoss.isLt
        rw [Word.val_zero] at hno
        omega
      rw [recordLosses, if_neg hzero, recordPrecisionLoss_eq_of_no_room hnow hno]
      have hundo : modifyAll PeriodFund.forgive (modifyAll PeriodFund.bear b done) done = b := by
        rw [List.map_append] at hnodup
        apply modifyAll_modifyAll_eq_self (List.nodup_append.1 hnodup).1
        intro q x g hmem hq
        have hroom := hdone _ hmem
        simp only [fund_of_get? hq] at hroom
        exact PeriodFund.forgive_bear hroom
      exact congrArg (Prod.mk _) hundo

end Ledger

end Settlement
