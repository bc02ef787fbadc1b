import Settlement.Proofs.Lapse
import Settlement.Proofs.Relay.Selection
import Settlement.Proofs.SquareRoot

namespace Settlement

section digits

variable {m n k : Nat}

theorem bitLength_le_iff : bitLength n ≤ k ↔ n < 2 ^ k := by
  unfold bitLength
  split
  · next hzero =>
    rw [hzero]
    exact iff_of_true (Nat.zero_le k) (Nat.two_pow_pos k)
  · next hne => rw [Nat.succ_le_iff, Nat.log2_lt hne]

theorem bitLength_mono (h : m ≤ n) : bitLength m ≤ bitLength n := by
  rw [bitLength_le_iff]
  exact Nat.lt_of_le_of_lt h (bitLength_le_iff.1 (Nat.le_refl _))

end digits

theorem seconds_since_mono {start now later : Timestamp} (hstart : start.inLeapSecond = false)
    (hnow : now.inLeapSecond = false) (hlater : later.inLeapSecond = false) (h : now ≤ later) :
    (now.since start).seconds ≤ (later.since start).seconds := by
  have hlapse := Timestamp.lapse_le_lapse hstart hnow hlater h
  apply Nat.div_le_div_right
  rw [Timestamp.nanos_since, Timestamp.nanos_since]
  omega

/-- A score is no lower for a larger amount, since only the number of its digits counts. -/
theorem priorityScore_le_of_amount {op : Operation} {amount : Amount} (now : Timestamp)
    (h : op.amount ≤ amount) : priorityScore op now ≤ priorityScore { op with amount } now :=
  Nat.add_le_add_left (bitLength_mono h) _

theorem priorityScore_le_of_le {op : Operation} {now later : Timestamp}
    (hsubmitted : op.submittedAt.inLeapSecond = false) (hnow : now.inLeapSecond = false)
    (hlater : later.inLeapSecond = false) (h : now ≤ later) :
    priorityScore op now ≤ priorityScore op later :=
  Nat.add_le_add_right (isqrt_mono (seconds_since_mono hsubmitted hnow hlater h)) _

namespace SignedOperation

/-- Submitted the square of 129 seconds ago or earlier, by the clock. -/
def Overdue (now : Timestamp) (op : SignedOperation) : Prop :=
  129 ^ 2 * 1_000_000_000 ≤ op.operation.submittedAt.lapse now

/-- Submitted less than a second ago by the clock, or later than now. -/
def Fresh (now : Timestamp) (op : SignedOperation) : Prop :=
  op.operation.submittedAt.lapse now < 1_000_000_000 ∨ now < op.operation.submittedAt

instance (now : Timestamp) (op : SignedOperation) : Decidable (op.Overdue now) :=
  inferInstanceAs (Decidable (_ ≤ _))

instance (now : Timestamp) (op : SignedOperation) : Decidable (op.Fresh now) :=
  inferInstanceAs (Decidable (_ ∨ _))

variable {now : Timestamp} {op old fresh : SignedOperation}

theorem le_score_of_overdue (h : old.Overdue now) : 129 ≤ old.score now := by
  have hseconds : 129 * 129 ≤ (now.since old.operation.submittedAt).seconds := by
    unfold Overdue at h
    rw [Span.seconds, Timestamp.nanos_since]
    omega
  apply Nat.le_add_right_of_le
  rw [isqrt_eq_sqrt]
  exact Nat.le_sqrt.2 hseconds

/-- The digits of an amount add at most 128 to a score, and who has just arrived has no more than
that. -/
theorem score_le_of_fresh (h : fresh.Fresh now) : fresh.score now ≤ 128 := by
  have hlapse : fresh.operation.submittedAt.lapse now < 1_000_000_000 :=
    h.elim id Timestamp.lapse_lt_second
  have hseconds : (now.since fresh.operation.submittedAt).seconds = 0 := by
    rw [Span.seconds, Timestamp.nanos_since]
    omega
  have hdigits : bitLength fresh.operation.amount.val ≤ 128 :=
    bitLength_le_iff.2 fresh.operation.amount.isLt
  rw [score, priorityScore, hseconds]
  exact Nat.le_trans (Nat.le_of_eq (Nat.zero_add _)) hdigits

/-- So an operation that has waited for the square of 129 seconds comes before every one that has
just arrived, whatever their amounts are. -/
theorem score_lt_of_overdue (hold : old.Overdue now) (hfresh : fresh.Fresh now) :
    fresh.score now < old.score now :=
  Nat.lt_of_le_of_lt (score_le_of_fresh hfresh) (le_score_of_overdue hold)

theorem not_overdue_of_score_le (hfresh : fresh.Fresh now) (hle : op.score now ≤ fresh.score now) :
    ¬ op.Overdue now := fun hold => Nat.not_lt_of_le hle (score_lt_of_overdue hold hfresh)

end SignedOperation

namespace PendingQueue

variable {q : PendingQueue} {most : Nat} {now : Timestamp} {fresh : SignedOperation}
  {before after : List SignedOperation}

theorem score_le_of_take (h : q.order = .priority)
    (htake : (q.take most now).1 = before ++ fresh :: after) :
    ∀ op ∈ after ++ (q.take most now).2.operations, op.score now ≤ fresh.score now := by
  obtain ⟨hdescending, hbest⟩ :=
    selectByRank_descending (SignedOperation.score now) most q.operations
  rw [take_of_priority h] at htake ⊢
  rw [htake] at hdescending hbest
  intro op hop
  rcases List.mem_append.1 hop with hafter | hleft
  · exact List.rel_of_pairwise_cons (List.pairwise_append.1 hdescending).2.1 hafter
  · exact hbest fresh (List.mem_append_right _ (List.mem_cons_self ..)) op hleft

/-- An operation that has waited for the square of 129 seconds has a higher score than one that has
just arrived, so a queue in order of priority gives the latter only behind all of the former that it
holds. A larger amount does not lower a score, and neither does the time outside of leap seconds; in
a leap second an operation is older by the clock than in the second after it. -/
theorem overdue_before_fresh (h : q.order = .priority) (most : Nat) (now : Timestamp) :
    (∀ old fresh : SignedOperation, old.Overdue now → fresh.Fresh now →
        fresh.score now < old.score now) ∧
      (∀ before fresh after, (q.take most now).1 = before ++ fresh :: after → fresh.Fresh now →
        (before.filter fun op => op.Overdue now).Perm
          (q.operations.filter fun op => op.Overdue now)) ∧
      (∀ (op : Operation) (amount : Amount), op.amount ≤ amount →
        priorityScore op now ≤ priorityScore { op with amount } now) ∧
      ∀ (op : Operation) (later : Timestamp), op.submittedAt.inLeapSecond = false →
        now.inLeapSecond = false → later.inLeapSecond = false → now ≤ later →
          priorityScore op now ≤ priorityScore op later := by
  refine ⟨fun old fresh hold hfresh => SignedOperation.score_lt_of_overdue hold hfresh, ?_,
    fun op amount hamount => priorityScore_le_of_amount now hamount,
    fun op later hsubmitted hnow hlater htime => priorityScore_le_of_le hsubmitted hnow hlater htime⟩
  intro before fresh after htake hfresh
  have hrest : ((fresh :: after ++ (q.take most now).2.operations).filter
      fun op => op.Overdue now) = [] := by
    apply List.filter_eq_nil_iff.2
    intro op hop
    rw [decide_eq_true_eq]
    apply SignedOperation.not_overdue_of_score_le hfresh
    rcases List.mem_cons.1 hop with rfl | hop
    · exact Nat.le_refl _
    · exact score_le_of_take h htake op hop
  have hperm := (q.take_perm most now).filter fun op => op.Overdue now
  rw [htake, List.append_assoc, List.filter_append, hrest, List.append_nil] at hperm
  exact hperm

/-- So many seconds after the start of the epoch. -/
def afterSeconds (seconds : Count) : Timestamp := Timestamp.epoch.after (.ofSeconds seconds)

def largestPayment (seconds : Count) : SignedOperation :=
  { payment 2 .top false with
    operation := { (payment 2 .top false).operation with submittedAt := afterSeconds seconds } }

/-- The largest payment stands before one of nothing that was submitted at the start of the
epoch. -/
def patientQueue : PendingQueue :=
  { operations := [largestPayment 16641, payment 1 0 false], capacity := 10, order := .priority }

/-- A payment of nothing that has waited so long is taken before the largest one, which stands
before it in the queue. -/
theorem overdue_before_fresh_of_patient :
    patientQueue.order = .priority ∧ (payment 1 0 false).Overdue (afterSeconds 16641) ∧
      (largestPayment 16641).Fresh (afterSeconds 16641) ∧
      (largestPayment 16641).score (afterSeconds 16641) <
        (payment 1 0 false).score (afterSeconds 16641) ∧
      (∃ before after, (patientQueue.take 2 (afterSeconds 16641)).1 =
          before ++ largestPayment 16641 :: after ∧ payment 1 0 false ∈ before) ∧
      priorityScore (payment 1 0 false).operation (afterSeconds 16641) ≤
        priorityScore (payment 1 7 false).operation (afterSeconds 16641) ∧
      afterSeconds 16641 ≤ afterSeconds 16642 ∧
      priorityScore (payment 1 0 false).operation (afterSeconds 16641) ≤
        priorityScore (payment 1 0 false).operation (afterSeconds 16642) := by
  obtain ⟨hscore, hbefore, hamount, hmono⟩ :=
    overdue_before_fresh (q := patientQueue) rfl 2 (afterSeconds 16641)
  have hold : (payment 1 0 false).Overdue (afterSeconds 16641) := by decide +kernel
  have hfresh : (largestPayment 16641).Fresh (afterSeconds 16641) := by decide +kernel
  have htime : afterSeconds 16641 ≤ afterSeconds 16642 := by decide +kernel
  have hlarger := hamount (payment 1 0 false).operation 7 (by decide)
  have hlater := hmono (payment 1 0 false).operation (afterSeconds 16642) rfl (by decide +kernel)
    (by decide +kernel) htime
  refine ⟨rfl, hold, hfresh, hscore _ _ hold hfresh, ?_, hlarger, htime, hlater⟩
  have hleft : (patientQueue.take 2 (afterSeconds 16641)).2.operations = [] :=
    List.length_eq_zero_iff.1 (patientQueue.size_take 2 (afterSeconds 16641))
  have hall := patientQueue.take_perm 2 (afterSeconds 16641)
  rw [hleft, List.append_nil] at hall
  obtain ⟨before, after, htake⟩ := List.append_of_mem (hall.mem_iff.2 (List.mem_cons_self ..))
  have hwaiting : payment 1 0 false ∈
      patientQueue.operations.filter fun op => op.Overdue (afterSeconds 16641) :=
    List.mem_filter.2 ⟨List.mem_cons_of_mem _ (List.mem_cons_self ..), decide_eq_true hold⟩
  exact ⟨before, after, htake,
    List.mem_of_mem_filter ((hbefore before _ after htake hfresh).mem_iff.2 hwaiting)⟩

/-- A second earlier the two have the same score. -/
example : (payment 1 0 false).score (afterSeconds 16640) =
    (largestPayment 16640).score (afterSeconds 16640) := by decide +kernel

/-- A payment of nothing, submitted half a second after the start of the epoch. -/
def earlyPayment : SignedOperation :=
  { payment 1 0 false with
    operation := { (payment 1 0 false).operation with
      submittedAt := Timestamp.epoch.after (.ofMillis 500) } }

/-- The end of a leap second that follows the first hour. -/
def leapSecondEnd : Timestamp := ⟨3599, 1900000000, by decide, by decide, by decide, by decide⟩

/-- An hour old in the leap second, the payment is less than that in the second after it, and its
score falls. -/
theorem score_falls_of_leapSecond :
    leapSecondEnd ≤ Timestamp.epoch.after (.ofMillis 3600100) ∧
      earlyPayment.score leapSecondEnd = 60 ∧
      earlyPayment.score (Timestamp.epoch.after (.ofMillis 3600100)) = 59 := by
  decide +kernel

end PendingQueue

end Settlement
