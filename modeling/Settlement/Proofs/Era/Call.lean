import Mathlib.Algebra.Ring.Nat
import Settlement.Era
import Settlement.Proofs.Result

namespace Settlement

/-- What the periods are asked to do one after the other. There are three calls that change them. -/
inductive EraCall
  | advance (now : Timestamp)
  | record (count : Count)
  | setFeeSchedule (schedule : FeeSchedule)
deriving DecidableEq

namespace EraCall

/-- The time at which the call closes a period, if it is granted. -/
def closing? : EraCall → Option Timestamp
  | .advance now => some now
  | _ => none

/-- The operations that the call counts, if it is granted. Other calls count none, not even zero. -/
def count? : EraCall → Option Count
  | .record count => some count
  | _ => none

/-- The policy after the call, if it is granted: a schedule that is set prices the periods that are
closed later. -/
def terms (policy : EraPolicy) : EraCall → EraPolicy
  | .setFeeSchedule schedule => { policy with feeSchedule := schedule }
  | _ => policy

end EraCall

theorem PeriodId.next?_eq_some_iff {p next : PeriodId} :
    p.next? = some next ↔ next.number.val = p.number.val + 1 := by
  obtain ⟨next⟩ := next
  rw [next?, Option.map_eq_some_iff]
  constructor
  · rintro ⟨_, hnumber, ⟨⟩⟩
    exact (Word.ofNat?_eq_some_iff.1 hnumber).symm
  · intro h
    exact ⟨next, Word.ofNat?_eq_some_iff.2 h.symm, rfl⟩

namespace Era

/-- What will be known of the current period when it is closed at a time. -/
def closed (e : Era) (now : Timestamp) : PeriodSnapshot where
  period := e.current
  operations := e.accumulator
  openedAt := e.startedAt
  closedAt := now
  overdue := e.policy.maxPeriodDuration < now.since e.startedAt
  feeSchedule := e.policy.feeSchedule

/-- The effect of a granted call, with the checks that it passed. A call does nothing but what its
case says, so whatever holds of the periods is proved case by case. -/
inductive Stepped (e : Era) : EraCall → Era → Prop
  | advanced {now : Timestamp} {next : PeriodId}
      (hlong : e.policy.minPeriodDuration ≤ now.since e.startedAt)
      (hlast : e.current.number < e.policy.maxPeriod)
      (hnext : next.number.val = e.current.number.val + 1)
      (hblock : e.policy.overduePolicy = .block → (e.closed now).overdue = false) :
      Stepped e (.advance now)
        { e with
          current := next
          accumulator := 0
          startedAt := now
          snapshots := e.snapshots.insert e.current (e.closed now) }
  | recorded {count accumulator totalOperations : Count}
      (haccumulator : e.accumulator.val + count.val = accumulator.val)
      (htotal : e.totalOperations.val + count.val = totalOperations.val) :
      Stepped e (.record count) { e with accumulator, totalOperations }
  | priced {schedule : FeeSchedule} :
      Stepped e (.setFeeSchedule schedule) { e with policy.feeSchedule := schedule }

/-- The era after a call, if it is granted. What closing a period answers besides is left out. -/
def apply (e : Era) : EraCall → Result Era
  | .advance now => (e.advance now).map Prod.snd
  | .record count => e.record count
  | .setFeeSchedule schedule => e.setFeeSchedule schedule

variable {e e' : Era} {call : EraCall}

/-- The periods start with the first one, in which nothing is counted, under terms that were
checked. -/
theorem start_eq_ok {policy : EraPolicy} {now : Timestamp} (h : Era.start policy now = .ok e) :
    policy.validate = .ok () ∧ e = ⟨policy, ⟨0⟩, 0, now, .empty, 0⟩ := by
  obtain ⟨_, hvalid, h⟩ := Result.bind_eq_ok_iff.1 h
  cases h
  exact ⟨hvalid, rfl⟩

theorem stepped_of_advance {now : Timestamp} {snapshot : PeriodSnapshot}
    (h : e.advance now = .ok (snapshot, e')) :
    snapshot = e.closed now ∧ Stepped e (.advance now) e' := by
  obtain ⟨_, hlong, h⟩ := Result.bind_eq_ok_iff.1 h
  obtain ⟨_, hlast, h⟩ := Result.bind_eq_ok_iff.1 h
  obtain ⟨next, hnext, h⟩ := Result.bind_eq_ok_iff.1 h
  obtain ⟨_, hintime, h⟩ := Result.bind_eq_ok_iff.1 h
  cases h
  rw [require_eq_ok_iff] at hlong hlast hintime
  rw [orRefuse_eq_ok_iff, PeriodId.next?_eq_some_iff] at hnext
  refine ⟨rfl, .advanced hlong hlast hnext fun hblock => ?_⟩
  exact Bool.eq_false_iff.2 fun hoverdue => hintime ⟨hoverdue, hblock⟩

theorem stepped (h : e.apply call = .ok e') : Stepped e call e' := by
  cases call with
  | advance now =>
    obtain ⟨⟨snapshot, e'⟩, hadvance, rfl⟩ := Result.map_eq_ok_iff.1 h
    exact (stepped_of_advance hadvance).2
  | record count =>
    obtain ⟨accumulator, haccumulator, h⟩ := Result.bind_eq_ok_iff.1 h
    obtain ⟨total, htotal, h⟩ := Result.bind_eq_ok_iff.1 h
    cases h
    rw [orRefuse_eq_ok_iff, Word.add?_eq_some_iff] at haccumulator htotal
    exact .recorded haccumulator htotal
  | setFeeSchedule schedule =>
    obtain ⟨_, -, h⟩ := Result.bind_eq_ok_iff.1 h
    cases h
    exact .priced

theorem Stepped.val_current (h : Stepped e call e') :
    e'.current.number.val = e.current.number.val + call.closing?.toList.length := by
  cases h with
  | advanced _ _ hnext => exact hnext
  | recorded => rfl
  | priced => rfl

theorem Stepped.val_totalOperations (h : Stepped e call e') :
    e'.totalOperations.val =
      e.totalOperations.val + (call.count?.toList.map Word.val).sum := by
  cases h with
  | advanced => rfl
  | recorded _ htotal => exact htotal.symm
  | priced => rfl

theorem Stepped.policy_eq (h : Stepped e call e') : e'.policy = call.terms e.policy := by
  cases h with
  | advanced => rfl
  | recorded => rfl
  | priced => rfl

theorem Stepped.lt_current (h : Stepped e call e') {p : PeriodId} (hp : p < e.current) :
    p < e'.current := by
  have hcurrent := h.val_current
  rw [PeriodId.lt_def] at hp ⊢
  omega

/-- The periods after a call, whether it is granted or not: a refused call leaves them as they
are. -/
def next (e : Era) (call : EraCall) : Era :=
  match e.apply call with
  | .ok e' => e'
  | .error _ => e

theorem next_of_ok (h : e.apply call = .ok e') : e.next call = e' := by rw [next, h]

theorem next_of_error {cause : Error} (h : e.apply call = .error cause) : e.next call = e := by
  rw [next, h]

/-- The era after a sequence of calls. Calls that are refused are passed over. -/
def after (e : Era) (calls : List EraCall) : Era := calls.foldl next e

theorem after_concat (e : Era) (calls : List EraCall) (call : EraCall) :
    e.after (calls ++ [call]) = (e.after calls).next call := by
  rw [after, List.foldl_append]
  rfl

/-- The calls of a sequence that are granted, in order, each in the era that it meets. -/
def granted (e : Era) : List EraCall → List EraCall
  | [] => []
  | call :: calls =>
    match e.apply call with
    | .ok e' => call :: e'.granted calls
    | .error _ => e.granted calls

theorem granted_concat (e : Era) (calls : List EraCall) (call : EraCall) :
    e.granted (calls ++ [call]) =
      match (e.after calls).apply call with
      | .ok _ => e.granted calls ++ [call]
      | .error _ => e.granted calls := by
  induction calls generalizing e with
  | nil => rfl
  | cons head calls ih =>
    change (match e.apply head with
      | .ok e' => head :: e'.granted (calls ++ [call])
      | .error _ => e.granted (calls ++ [call])) = match ((e.next head).after calls).apply call with
      | .ok _ => e.granted (head :: calls) ++ [call]
      | .error _ => e.granted (head :: calls)
    rw [granted]
    cases happly : e.apply head with
    | error cause =>
      rw [next_of_error happly]
      exact ih e
    | ok e' =>
      rw [next_of_ok happly]
      simp only [ih e']
      cases (e'.after calls).apply call <;> rfl

/-- What holds of the periods and of the calls granted so far, if every granted call keeps it so.
The induction over the calls is made here, once for all that is said of a whole sequence. -/
theorem after_of_stepped {P : List EraCall → Era → Prop}
    (hstep : ∀ {before e call e'}, P before e → Stepped e call e' → P (before ++ [call]) e')
    {before : List EraCall} (h : P before e) (calls : List EraCall) :
    P (before ++ e.granted calls) (e.after calls) := by
  induction calls generalizing before e with
  | nil =>
    rw [granted, List.append_nil]
    exact h
  | cons call calls ih =>
    change P _ ((e.next call).after calls)
    rw [granted]
    cases happly : e.apply call with
    | error cause =>
      rw [next_of_error happly]
      exact ih h
    | ok e' =>
      rw [next_of_ok happly, List.append_cons]
      exact ih (hstep h (stepped happly))

end Era

end Settlement
