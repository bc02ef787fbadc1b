import Mathlib.Algebra.Group.Nat.Defs
import Settlement.Proofs.Relay.Arrival

namespace Settlement

/-- The draw preferred one arrival to the other for its score. -/
def Draw.Prefers (d : Draw) (x y : Arrival) : Prop :=
  x ∈ d.batch ∧ y ∈ d.batch ++ d.left ∧ y.score d.now < x.score d.now

/-- One arrival stands before the other: of the draws that preferred one of them the last preferred
it, or there was none and it came first. A batch that failed goes back in the order of its ranks, so
what scored higher in it stays in front when the scores have become equal. The draws are given from
the last one back. -/
def Ahead : List Draw → Arrival → Arrival → Prop
  | [], x, y => x.number < y.number
  | d :: earlier, x, y => d.Prefers x y ∨ ¬ d.Prefers y x ∧ Ahead earlier x y

namespace Ahead

variable {draws : List Draw} {x y : Arrival}

theorem asymm (h : Ahead draws x y) : ¬ Ahead draws y x := by
  induction draws with
  | nil => exact Nat.lt_asymm h
  | cons d earlier ih =>
    rintro (hyx | ⟨hxy, hback⟩)
    · rcases h with hprefers | ⟨hnot, -⟩
      · exact Nat.lt_asymm hprefers.2.2 hyx.2.2
      · exact hnot hyx
    · rcases h with hprefers | ⟨-, hahead⟩
      · exact hxy hprefers
      · exact ih hahead hback

theorem ne (h : Ahead draws x y) : x ≠ y := by
  rintro rfl
  exact h.asymm h

theorem of_later {n : Nat} (hx : x.number < n) (hy : y.number = n)
    (hdraws : ∀ d ∈ draws, ∀ z ∈ d.batch ++ d.left, z.number < n) : Ahead draws x y := by
  induction draws with
  | nil => exact Nat.lt_of_lt_of_eq hx hy.symm
  | cons d earlier ih =>
    refine .inr ⟨fun hprefers => ?_, ih fun e he => hdraws e (List.mem_cons_of_mem _ he)⟩
    have hlt := hdraws d (List.mem_cons_self ..) y (List.mem_append_left _ hprefers.1)
    omega

theorem iff_of_score_eq {now : Timestamp} (hscore : x.score now = y.score now)
    (hdraws : ∀ d ∈ draws, d.now = now) : Ahead draws x y ↔ x.number < y.number := by
  induction draws with
  | nil => exact Iff.rfl
  | cons d earlier ih =>
    have hnow : d.now = now := hdraws d (List.mem_cons_self ..)
    have hxy : ¬ d.Prefers x y := by
      rintro ⟨-, -, hlt⟩
      rw [hnow] at hlt
      omega
    have hyx : ¬ d.Prefers y x := by
      rintro ⟨-, -, hlt⟩
      rw [hnow] at hlt
      omega
    rw [← ih fun e he => hdraws e (List.mem_cons_of_mem _ he), Ahead]
    exact ⟨fun h => (h.resolve_left hxy).2, fun h => .inr ⟨hyx, h⟩⟩

end Ahead

namespace Arrivals

theorem pairwise_draw {a : Arrivals} (h : a.waiting.Pairwise (Ahead a.failed)) (most : Nat)
    (now : Timestamp) : ((a.draw most now).batch ++ (a.draw most now).left).Pairwise
      (Ahead (a.draw most now :: a.failed)) := by
  obtain ⟨hbatch, hcut⟩ := selectByRank_pairwise (Arrival.score now) most h
  have hnodup : ((a.draw most now).batch ++ (a.draw most now).left).Nodup :=
    (selectByRank_perm (Arrival.score now) most a.waiting).nodup_iff.2 (h.imp Ahead.ne)
  have hleft := h.sublist (selectByRank_sublist (Arrival.score now) most a.waiting)
  have hahead {x y : Arrival} (hx : x ∈ (a.draw most now).batch)
      (hy : y ∈ (a.draw most now).batch ++ (a.draw most now).left)
      (hxy : y.score now < x.score now ∨ x.score now = y.score now ∧ Ahead a.failed x y) :
      Ahead (a.draw most now :: a.failed) x y := by
    rcases hxy with hlt | ⟨heq, hbefore⟩
    · exact .inl ⟨hx, hy, hlt⟩
    · refine .inr ⟨?_, hbefore⟩
      rintro ⟨-, -, hlt⟩
      exact Nat.lt_irrefl _ (heq ▸ hlt)
  rw [List.pairwise_append]
  refine ⟨?_, ?_, ?_⟩
  · apply hbatch.imp_of_mem
    intro x y hx hy hxy
    exact hahead hx (List.mem_append_left _ hy) hxy
  · apply hleft.imp_of_mem
    intro x y hx hy hxy
    -- what is left was not taken, so the draw preferred none of it
    have hnot : y ∉ (a.draw most now).batch := fun hmem =>
      (List.nodup_append.1 hnodup).2.2 y hmem y hy rfl
    exact .inr ⟨fun hprefers => hnot hprefers.1, hxy⟩
  · intro x hx y hy
    exact hahead hx (List.mem_append_right _ hy) (hcut x hx y hy)

/-- The draws whose batches are or may come back, the last of them first. -/
def draws (a : Arrivals) : List Draw := a.out.toList ++ a.failed

/-- Arrivals carry the numbers of their acceptance, and stand as the failed batches have put them;
with the batch that is out in front they stand as they would after its failure. -/
structure Standing (a : Arrivals) : Prop where
  placed : ∀ x ∈ a.batch ++ a.waiting, a.accepted[x.number]? = some x.operation
  known : ∀ d ∈ a.draws, ∀ x ∈ d.batch ++ d.left, x.number < a.accepted.length
  waits : a.waiting.Pairwise (Ahead a.failed)
  restored : (a.batch ++ a.waiting).Pairwise (Ahead a.draws)

namespace Standing

variable {a : Arrivals}

theorem empty : Standing {} := by
  constructor <;> simp [batch, draws]

theorem lt_length (h : a.Standing) {x : Arrival} (hx : x ∈ a.batch ++ a.waiting) :
    x.number < a.accepted.length :=
  (List.getElem?_eq_some_iff.1 (h.placed x hx)).1

theorem eq_of_number_eq (h : a.Standing) {x y : Arrival} (hx : x ∈ a.waiting) (hy : y ∈ a.waiting)
    (hnumber : x.number = y.number) : x = y := by
  have hplaced := h.placed x (List.mem_append_right _ hx)
  rw [hnumber, h.placed y (List.mem_append_right _ hy)] at hplaced
  exact Arrival.ext (Option.some.inj hplaced).symm hnumber

theorem nodup_numbers (h : a.Standing) : (a.waiting.map Arrival.number).Nodup := by
  rw [List.nodup_map_iff_inj_on (h.waits.imp Ahead.ne)]
  exact fun x hx y hy => h.eq_of_number_eq hx hy

theorem push (h : a.Standing) (op : SignedOperation) : Standing { a with
    accepted := a.accepted ++ [op]
    waiting := a.waiting ++ [⟨op, a.accepted.length⟩] } := by
  have hbehind : ∀ draws, (∀ d ∈ draws, d ∈ a.draws) → ∀ x ∈ a.batch ++ a.waiting,
      ∀ y ∈ [(⟨op, a.accepted.length⟩ : Arrival)], Ahead draws x y := by
    intro draws hdraws x hx y hy
    rw [List.mem_singleton.1 hy]
    exact Ahead.of_later (h.lt_length hx) rfl fun d hd => h.known d (hdraws d hd)
  constructor
  · intro x hx
    change x ∈ a.batch ++ (a.waiting ++ _) at hx
    rw [← List.append_assoc] at hx
    rcases List.mem_append.1 hx with hold | hnew
    · exact (List.getElem?_append_left (h.lt_length hold)).trans (h.placed x hold)
    · rw [List.mem_singleton.1 hnew]
      exact List.getElem?_concat_length
  · intro d hd x hx
    have hlt := h.known d hd x hx
    rw [List.length_append]
    omega
  · refine List.pairwise_append.2 ⟨h.waits, List.pairwise_singleton .., fun x hx => ?_⟩
    exact hbehind a.failed (fun d hd => List.mem_append_right _ hd) x (List.mem_append_right _ hx)
  · change (a.batch ++ (a.waiting ++ _)).Pairwise _
    rw [← List.append_assoc]
    exact List.pairwise_append.2
      ⟨h.restored, List.pairwise_singleton .., hbehind a.draws fun d hd => hd⟩

theorem take (h : a.Standing) (most : Nat) (now : Timestamp) : Standing { a with
    waiting := (a.draw most now).left
    out := some (a.draw most now) } := by
  have hperm := selectByRank_perm (Arrival.score now) most a.waiting
  have hwaiting : ∀ x ∈ (a.draw most now).batch ++ (a.draw most now).left,
      x ∈ a.batch ++ a.waiting :=
    fun x hx => List.mem_append_right _ (hperm.mem_iff.1 hx)
  constructor
  · exact fun x hx => h.placed x (hwaiting x hx)
  · intro d hd x hx
    rcases List.mem_cons.1 hd with rfl | hfailed
    · exact h.lt_length (hwaiting x hx)
    · exact h.known d (List.mem_append_right _ hfailed) x hx
  · exact h.waits.sublist (selectByRank_sublist ..)
  · exact pairwise_draw h.waits most now

theorem requeue (h : a.Standing) {d : Draw} (hout : a.out = some d) : Standing { a with
    waiting := d.batch ++ a.waiting
    out := none
    failed := d :: a.failed } := by
  obtain ⟨hplaced, hknown, -, hrestored⟩ := h
  rw [draws, hout] at hknown hrestored
  rw [batch, hout] at hplaced hrestored
  exact ⟨hplaced, hknown, hrestored, hrestored⟩

theorem next (h : a.Standing) (capacity : Nat) (call : QueueCall) :
    (a.next capacity call).Standing := by
  cases call with
  | push op =>
    rw [Arrivals.next]
    split
    · exact h.push op
    · exact h
  | take most now => exact h.take most now
  | requeue =>
    cases hout : a.out with
    | none =>
      rw [Arrivals.next, hout]
      exact h
    | some d =>
      rw [Arrivals.next, hout]
      exact h.requeue hout

/-- Every run of calls keeps the standing, by induction on the calls. -/
theorem after (h : a.Standing) (capacity : Nat) (calls : List QueueCall) :
    (a.after capacity calls).Standing := by
  induction calls generalizing a with
  | nil => exact h
  | cons call calls ih => exact ih (h.next capacity call)

end Standing

end Arrivals

/-- A batch has as many of the waiting arrivals as there may be, the best of them and the best
first. -/
structure BestFirst (now : Timestamp) (most : Nat) (waiting batch : List Arrival) : Prop where
  size : batch.length = min most waiting.length
  distinct : batch.Nodup
  drawn : batch ⊆ waiting
  descending : batch.Pairwise fun x y => y.score now ≤ x.score now
  best : ∀ x ∈ batch, ∀ y ∈ waiting, y ∉ batch → y.score now ≤ x.score now

/-- Of two arrivals with equal scores the earlier one is taken, and if both are it is the first. -/
structure TiesByArrival (now : Timestamp) (waiting batch : List Arrival) : Prop where
  within : batch.Pairwise fun x y => x.score now = y.score now → x.number < y.number
  cut : ∀ x ∈ batch, ∀ y ∈ waiting, y ∉ batch → x.score now = y.score now → x.number < y.number

namespace Arrivals

variable {a : Arrivals}

theorem left_of_not_mem_batch {most : Nat} {now : Timestamp} {y : Arrival} (hy : y ∈ a.waiting)
    (hbatch : y ∉ (a.draw most now).batch) : y ∈ (a.draw most now).left := by
  have hperm := selectByRank_perm (Arrival.score now) most a.waiting
  exact (List.mem_append.1 (hperm.mem_iff.2 hy)).resolve_left hbatch

theorem bestFirst_draw (hnodup : a.waiting.Nodup) (most : Nat) (now : Timestamp) :
    BestFirst now most a.waiting (a.draw most now).batch := by
  have hperm := selectByRank_perm (Arrival.score now) most a.waiting
  obtain ⟨hbatch, hcut⟩ := selectByRank_descending (Arrival.score now) most a.waiting
  constructor
  · exact length_selectByRank ..
  · exact (List.nodup_append.1 (hperm.nodup_iff.2 hnodup)).1
  · exact fun x hx => hperm.mem_iff.1 (List.mem_append_left _ hx)
  · exact hbatch
  · exact fun x hx y hy hnot => hcut x hx y (left_of_not_mem_batch hy hnot)

theorem number_lt_of_ahead {batch : List Arrival} {now : Timestamp} {draws : List Draw}
    (hahead : batch.Pairwise fun x y =>
      y.score now < x.score now ∨ x.score now = y.score now ∧ Ahead draws x y)
    (hties : batch.Pairwise fun x y => x.score now = y.score now → x.number < y.number) :
    ∀ x ∈ batch, ∀ y ∈ batch, x.score now = y.score now → Ahead draws x y →
      x.number < y.number := by
  intro x hx y hy
  apply List.Pairwise.forall_of_forall_of_flip (l := batch)
    (R := fun x y => x.score now = y.score now → Ahead draws x y → x.number < y.number) _ _ _ hx hy
  · exact fun x _ _ h => absurd h h.asymm
  · exact hties.imp fun h hscore _ => h hscore
  · apply hahead.imp
    rintro x y (hlt | ⟨-, hbefore⟩) hscore hback
    · omega
    · exact absurd hback hbefore.asymm

namespace Standing

/-- Equal scores go by what stands first, so they go by arrival unless something later stands
first. -/
theorem tiesByArrival_draw_iff (h : a.Standing) (most : Nat) (now : Timestamp) :
    TiesByArrival now a.waiting (a.draw most now).batch ↔
      ∀ x ∈ (a.draw most now).batch, ∀ y ∈ a.waiting, x.score now = y.score now →
        y.number < x.number → ¬ Ahead a.failed x y := by
  obtain ⟨hbatch, hcut⟩ := selectByRank_pairwise (Arrival.score now) most h.waits
  constructor
  · intro hties x hx y hy hscore hlt hahead
    by_cases hdrawn : y ∈ (a.draw most now).batch
    · have hnumber := number_lt_of_ahead hbatch hties.within x hx y hdrawn hscore hahead
      omega
    · have hnumber := hties.cut x hx y hy hdrawn hscore
      omega
  · intro hnone
    have hdrawn : ∀ x ∈ (a.draw most now).batch, x ∈ a.waiting :=
      (bestFirst_draw (h.waits.imp Ahead.ne) most now).drawn
    have hfirst {x y : Arrival} (hx : x ∈ (a.draw most now).batch) (hy : y ∈ a.waiting)
        (hxy : y.score now < x.score now ∨ x.score now = y.score now ∧ Ahead a.failed x y)
        (hscore : x.score now = y.score now) : x.number < y.number := by
      rcases hxy with hlt | ⟨-, hahead⟩
      · omega
      · have hle : ¬ y.number < x.number := fun hlt => hnone x hx y hy hscore hlt hahead
        have hne : x.number ≠ y.number := fun heq =>
          hahead.ne (h.eq_of_number_eq (hdrawn x hx) hy heq)
        omega
    constructor
    · apply hbatch.imp_of_mem
      exact fun hx hy hxy => hfirst hx (hdrawn _ hy) hxy
    · intro x hx y hy hnot
      exact hfirst hx hy (hcut x hx y (left_of_not_mem_batch hy hnot))

theorem tiesByArrival_draw (h : a.Standing) (most : Nat) {now : Timestamp}
    (hfailed : ∀ d ∈ a.failed, d.now = now) :
    TiesByArrival now a.waiting (a.draw most now).batch := by
  rw [h.tiesByArrival_draw_iff]
  intro x _ y _ hscore hlt hahead
  have hnumber := (Ahead.iff_of_score_eq hscore hfailed).1 hahead
  omega

end Standing

end Arrivals

namespace QueueState

variable {capacity : Nat} {calls : List QueueCall} {s : QueueState} {a : Arrivals}

/-- In every run of a queue in order of priority, what is taken are the best of the operations that
wait, the best first. Equal scores go by arrival exactly if no arrival that is taken ties with an
earlier one before which failed batches have put it. Batches that failed at the same time have put
none before another with the same score. -/
theorem take_ties_iff (hs : (start capacity).after calls = s)
    (ha : Arrivals.after capacity {} calls = a) (most : Nat) (now : Timestamp) :
    s.queue.operations = a.waiting.map Arrival.operation ∧
      (a.waiting.map Arrival.number).Nodup ∧
      (∀ x ∈ a.waiting, s.accepted[x.number]? = some x.operation) ∧
      (s.queue.take most now).1 = (a.draw most now).batch.map Arrival.operation ∧
      BestFirst now most a.waiting (a.draw most now).batch ∧
      (TiesByArrival now a.waiting (a.draw most now).batch ↔
        ∀ x ∈ (a.draw most now).batch, ∀ y ∈ a.waiting, x.score now = y.score now →
          y.number < x.number → ¬ Ahead a.failed x y) ∧
      ((∀ d ∈ a.failed, d.now = now) → TiesByArrival now a.waiting (a.draw most now).batch) := by
  have htracks : a.Tracks capacity s := by
    rw [← hs, ← ha]
    exact (Arrivals.Tracks.start capacity).after calls
  have hstanding : a.Standing := by
    rw [← ha]
    exact Arrivals.Standing.empty.after capacity calls
  refine ⟨by rw [htracks.queue], ?_, ?_, by rw [htracks.take_eq], ?_,
    hstanding.tiesByArrival_draw_iff most now, hstanding.tiesByArrival_draw most⟩
  · exact hstanding.nodup_numbers
  · intro x hx
    rw [htracks.accepted]
    exact hstanding.placed x (List.mem_append_right _ hx)
  · exact Arrivals.bestFirst_draw (hstanding.waits.imp Ahead.ne) most now

/-- The time so many seconds after the start of the epoch. -/
def second (n : Int) : Timestamp := (Timestamp.ofParts? n 0).getD .latest

/-- A payment of 2, submitted at the first second. -/
def laterPayment : SignedOperation :=
  { payment 2 2 false with
    operation := { (payment 2 2 false).operation with submittedAt := second 1 } }

/-- A payment of 1 and a later one of 2 wait. The larger one is taken alone, and fails. -/
def retryCalls : List QueueCall :=
  [.push (payment 1 1 false), .push laterPayment, .take 1 (second 3), .requeue]

/-- At the time at which it was drawn a failed batch leaves ties as they were: the larger payment
has the better score, and of the two others the earlier one is taken. -/
theorem take_ties_iff_of_retry :
    (((start 10).after (retryCalls ++ [.push (payment 3 1 false)])).queue.take 2 (second 3)).1 =
        [laterPayment, payment 1 1 false] ∧
      TiesByArrival (second 3)
        (Arrivals.after 10 {} (retryCalls ++ [.push (payment 3 1 false)])).waiting
        ((Arrivals.after 10 {} (retryCalls ++ [.push (payment 3 1 false)])).draw 2 (second 3)).batch := by
  obtain ⟨-, -, -, htake, -, -, hties⟩ :=
    @take_ties_iff 10 (retryCalls ++ [.push (payment 3 1 false)]) _ _ rfl rfl 2 (second 3)
  have hfailed : (Arrivals.after 10 {} (retryCalls ++ [.push (payment 3 1 false)])).failed =
      [⟨second 3, [⟨laterPayment, 1⟩], [⟨payment 1 1 false, 0⟩]⟩] := by cbv
  refine ⟨?_, hties ?_⟩
  · rw [htake]
    cbv
  · rw [hfailed]
    intro d hd
    rw [List.mem_singleton.1 hd]

/-- A second later the two payments have the same score, but the later one still stands first. -/
theorem not_tiesByArrival_of_retry :
    ((start (2 ^ 64 - 1)).after retryCalls).accepted = [payment 1 1 false, laterPayment] ∧
      second 3 ≤ second 4 ∧
      (payment 1 1 false).score (second 4) = laterPayment.score (second 4) ∧
      (((start (2 ^ 64 - 1)).after retryCalls).queue.take 2 (second 4)).1 =
        [laterPayment, payment 1 1 false] ∧
      ¬ TiesByArrival (second 4) (Arrivals.after (2 ^ 64 - 1) {} retryCalls).waiting
        ((Arrivals.after (2 ^ 64 - 1) {} retryCalls).draw 2 (second 4)).batch := by
  have hscore : (payment 1 1 false).score (second 4) = laterPayment.score (second 4) := by
    decide +kernel
  have hbatch : ((Arrivals.after (2 ^ 64 - 1) {} retryCalls).draw 2 (second 4)).batch =
      [⟨laterPayment, 1⟩, ⟨payment 1 1 false, 0⟩] := by cbv
  refine ⟨rfl, by decide +kernel, hscore, by cbv, fun hties => ?_⟩
  have hwithin := hties.within
  rw [hbatch] at hwithin
  have hnumber : 1 < 0 := List.rel_of_pairwise_cons hwithin (List.mem_singleton.2 rfl) hscore.symm
  exact absurd hnumber (by decide)

end QueueState

end Settlement
