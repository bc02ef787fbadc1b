import Settlement.Proofs.Relay.Turn

namespace Settlement.Relay

variable {σ ε : Type} [SettlementClient σ] [EraRecorder ε]

/-- One turn after the other until there is no batch, or one fails. The clock gives the time of each
turn. There is nothing in this relation to stop the loop but a turn without a batch or with a
failure. -/
inductive Flushes : (Nat → Timestamp) → Relay σ ε → List Turn →
    Result (List SettlementReport) → Relay σ ε → Prop
  | idle {clock : Nat → Timestamp} {r last : Relay σ ε}
      (hidle : Processed r (clock 0) none (.ok none) last) : Flushes clock r [] (.ok []) last
  | failed {clock : Nat → Timestamp} {r last : Relay σ ε} {turn : Turn} {e : Error}
      (hfailed : Processed r (clock 0) (some turn) (.error e) last) :
    Flushes clock r [turn] (.error e) last
  | settled {clock : Nat → Timestamp} {r next last : Relay σ ε} {turn : Turn}
      {report : SettlementReport} {turns : List Turn} {answer : Result (List SettlementReport)}
      (hsettled : Processed r (clock 0) (some turn) (.ok (some report)) next)
      (hrest : Flushes (fun n => clock (n + 1)) next turns answer last) :
    Flushes clock r (turn :: turns) (answer.map (report :: ·)) last

/-- The turns of a flush, which goes on as long as the queue gets shorter and no turn fails. -/
def flushTurns (r : Relay σ ε) (now : Timestamp) : List Turn :=
  match r.turn? now, r.processBatch now with
  | some turn, (.ok (some _), next) =>
    turn :: if next.pending < r.pending then next.flushTurns now else []
  | some turn, _ => [turn]
  | none, _ => []
termination_by r.pending

/-- The definition of a flush is the loop at a clock that stands still, so the check within the
definition is never what ends it. -/
theorem flushes_flush {r : Relay σ ε} (hbounded : r.policy.Bounded) (now : Timestamp) :
    Flushes (fun _ => now) r (r.flushTurns now) (r.flush now).1 (r.flush now).2 := by
  -- the measure is that of the definition; its check holds because a settled batch is not empty
  induction hn : r.pending using Nat.strongRecOn generalizing r with
  | ind n ih =>
    have hprocessed := r.processed now
    rw [flush, flushTurns]
    generalize hturn : r.turn? now = turn? at hprocessed ⊢
    generalize hanswer : r.processBatch now = processed at hprocessed ⊢
    obtain ⟨answer, next⟩ := processed
    simp only at hprocessed
    match turn?, answer, hprocessed with
    | none, .ok none, hidle => exact .idle hidle
    | some turn, .error e, hfailed => exact .failed hfailed
    | some turn, .ok (some report), hsettled =>
      have hlt := hsettled.pending_lt hbounded
      have hrest := ih _ (hn ▸ hlt) (hsettled.policy_eq ▸ hbounded) rfl
      simp only
      rw [if_pos hlt, if_pos hlt]
      generalize next.flush now = flushed at hrest ⊢
      obtain ⟨answer, last⟩ := flushed
      have hwhole : Flushes (fun _ => now) r (turn :: next.flushTurns now)
          (answer.map (report :: ·)) last := .settled hsettled hrest
      cases answer with
      | error e => exact hwhole
      | ok reports => exact hwhole

/-- Flushing ends, whatever the clock shows meanwhile: every turn that does not end it leaves fewer
operations. -/
theorem exists_flushes {r : Relay σ ε} (hbounded : r.policy.Bounded) (clock : Nat → Timestamp) :
    ∃ turns answer last, Flushes clock r turns answer last := by
  induction hn : r.pending using Nat.strongRecOn generalizing r clock with
  | ind n ih =>
    have hprocessed := r.processed (clock 0)
    generalize r.turn? (clock 0) = turn? at hprocessed
    generalize (r.processBatch (clock 0)).2 = next at hprocessed
    match turn?, (r.processBatch (clock 0)).1, hprocessed with
    | none, .ok none, hidle => exact ⟨_, _, _, .idle hidle⟩
    | some turn, .error e, hfailed => exact ⟨_, _, _, .failed hfailed⟩
    | some turn, .ok (some report), hsettled =>
      have hlt := hsettled.pending_lt hbounded
      obtain ⟨turns, answer, last, hrest⟩ :=
        ih _ (hn ▸ hlt) (hsettled.policy_eq ▸ hbounded) (fun n => clock (n + 1)) rfl
      exact ⟨_, _, _, .settled hsettled hrest⟩

/-- A flush that succeeds reports on all of its turns and leaves too few operations for a batch. -/
theorem Flushes.of_ok {clock : Nat → Timestamp} {r last : Relay σ ε} {turns : List Turn}
    {reports : List SettlementReport} (h : Flushes clock r turns (.ok reports) last) :
    turns.map Turn.outcome = reports.map .ok ∧
      last.pending < r.policy.batching.minBatchSize.val := by
  generalize hanswer : (.ok reports : Result (List SettlementReport)) = answer at h
  induction h generalizing reports with
  | idle hidle =>
    cases hanswer
    cases hidle with
    | idle hfew => exact ⟨rfl, hfew⟩
  | failed => cases hanswer
  | @settled clock r next last turn report turns answer hsettled _ ih =>
    cases answer with
    | error e => cases hanswer
    | ok rest =>
      cases hanswer
      obtain ⟨houtcomes, hfew⟩ := ih rfl
      rw [hsettled.policy_eq] at hfew
      refine ⟨?_, hfew⟩
      rw [List.map_cons, List.map_cons, houtcomes]
      cases hsettled with
      | settled => rfl

end Settlement.Relay
