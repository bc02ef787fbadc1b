import Settlement.Batch.Scatter
import Settlement.Relay.Queue

namespace Settlement

variable {α : Type}

/-- Whether a score and its position come before others: the score is higher, or as high and
earlier. -/
def outranks (a b : Nat × Nat) : Bool := b.1 < a.1 || (a.1 == b.1 && a.2 ≤ b.2)

/-- The positions of the `most` items with the highest scores, by descending score. Of equal scores
the earlier position comes first. -/
def bestPositions (score : α → Nat) (most : Nat) (items : List α) : List Nat :=
  (((items.zipIdx.map fun member => (score member.1, member.2)).mergeSort outranks).take
    most).map Prod.snd

/-- For each of `size` positions its rank among the best, if it is one of them. The table is written
rank by rank. -/
def rankTable (size : Nat) (best : List Nat) : List (Option Nat) :=
  scatter (List.replicate size none) best ((List.range best.length).map some)

/-- Parts the items with a rank from those without one, in one pass. Both parts keep their order. -/
def partByRank : List (α × Option Nat) → List (Nat × α) × List α
  | [] => ([], [])
  | (item, rank?) :: rest =>
    let (ranked, others) := partByRank rest
    match rank? with
    | some rank => ((rank, item) :: ranked, others)
    | none => (ranked, item :: others)

/-- The `most` items with the highest scores, by descending score, and the others in their order.
This is selection as it runs: positions are ranked first, and only the items that were selected are
sorted. -/
def selectByRank (score : α → Nat) (most : Nat) (items : List α) : List α × List α :=
  let table := rankTable items.length (bestPositions score most items)
  let (ranked, others) := partByRank (items.zip table)
  ((ranked.mergeSort fun a b => a.1 ≤ b.1).map Prod.snd, others)

end Settlement
