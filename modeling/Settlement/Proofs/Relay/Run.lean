import Settlement.Proofs.Relay.Flush

namespace Settlement

/-- What a relay is asked to do. The time of a turn and of a flush is given with it. -/
inductive RelayCall
  | submit (op : SignedOperation)
  | process (now : Timestamp)
  | flush (now : Timestamp)

namespace Relay

variable {σ ε : Type} [SettlementClient σ] [EraRecorder ε]

/-- The relay after a call, whatever the answer. A submission that is refused changes nothing. -/
def next (r : Relay σ ε) : RelayCall → Relay σ ε
  | .submit op =>
    match r.submit op with
    | .ok (_, r) => r
    | .error _ => r
  | .process now => (r.processBatch now).2
  | .flush now => (r.flush now).2

def after (r : Relay σ ε) (calls : List RelayCall) : Relay σ ε := calls.foldl next r

/-- The operation of a submission that is accepted. Other calls bring none. -/
def acceptedBy (r : Relay σ ε) : RelayCall → List SignedOperation
  | .submit op =>
    match r.submit op with
    | .ok _ => [op]
    | .error _ => []
  | .process _ => []
  | .flush _ => []

/-- The turns that a call leads to: none for a submission, at most one for a batch, and any number
for a flush. -/
def turnsBy (r : Relay σ ε) : RelayCall → List Turn
  | .submit _ => []
  | .process now => (r.turn? now).toList
  | .flush now => r.flushTurns now

/-- The operations that are accepted in a run, in order. Each of them is reported once or waits. -/
def accepted (r : Relay σ ε) : List RelayCall → List SignedOperation
  | [] => []
  | call :: calls => r.acceptedBy call ++ (r.next call).accepted calls

/-- The turns of a run, in order, with those of a flush one by one. -/
def turns (r : Relay σ ε) : List RelayCall → List Turn
  | [] => []
  | call :: calls => r.turnsBy call ++ (r.next call).turns calls

/-- A property of a relay, of the operations accepted so far and of the turns so far that an
accepted operation and a turn keep. It then holds after every run; the inductions over the turns of
a flush and over the calls of a run are made here, once for all such properties. -/
structure Kept (P : Relay σ ε → List SignedOperation → List Turn → Prop) : Prop where
  bounded : ∀ {r accepted turns}, P r accepted turns → r.policy.Bounded
  submit : ∀ {r accepted turns op queue}, P r accepted turns → r.queue.push op = .ok queue →
    P { r with queue } (accepted ++ [op]) turns
  turn : ∀ {r accepted turns now turn answer next}, P r accepted turns →
    Processed r now (some turn) answer next → P next accepted (turns ++ [turn])

namespace Kept

variable {P : Relay σ ε → List SignedOperation → List Turn → Prop} {r : Relay σ ε}
  {accepted : List SignedOperation} {turns : List Turn}

theorem flushes (hkept : Kept P) (h : P r accepted turns) {clock : Nat → Timestamp}
    {later : List Turn} {answer : Result (List SettlementReport)} {last : Relay σ ε}
    (hflushes : Flushes clock r later answer last) : P last accepted (turns ++ later) := by
  induction hflushes generalizing turns with
  | idle hidle =>
    cases hidle with
    | idle => rwa [List.append_nil]
  | failed hfailed => exact hkept.turn h hfailed
  | settled hsettled _ ih =>
    rw [List.append_cons]
    exact ih (hkept.turn h hsettled)

theorem next (hkept : Kept P) (h : P r accepted turns) (call : RelayCall) :
    P (r.next call) (accepted ++ r.acceptedBy call) (turns ++ r.turnsBy call) := by
  cases call with
  | submit op =>
    unfold Relay.next acceptedBy turnsBy
    simp only [List.append_nil]
    cases hsubmit : r.submit op with
    | error e =>
      simp only [List.append_nil]
      exact h
    | ok answer =>
      obtain ⟨queue, hqueue, hnext⟩ := submit_eq_ok hsubmit
      simp only [hnext]
      exact hkept.submit h hqueue
  | process now =>
    change P (r.processBatch now).2 (accepted ++ []) (turns ++ (r.turn? now).toList)
    rw [List.append_nil]
    have hprocessed := r.processed now
    generalize (r.processBatch now).2 = next at hprocessed ⊢
    match r.turn? now, (r.processBatch now).1, hprocessed with
    | none, _, .idle _ =>
      rw [Option.toList_none, List.append_nil]
      exact h
    | some turn, answer, hturn => exact hkept.turn h hturn
  | flush now =>
    change P (r.flush now).2 (accepted ++ []) (turns ++ r.flushTurns now)
    rw [List.append_nil]
    exact hkept.flushes h (flushes_flush (hkept.bounded h) now)

theorem after (hkept : Kept P) (h : P r accepted turns) (calls : List RelayCall) :
    P (r.after calls) (accepted ++ r.accepted calls) (turns ++ r.turns calls) := by
  induction calls generalizing r accepted turns with
  | nil =>
    unfold Relay.accepted Relay.turns
    rwa [List.append_nil, List.append_nil]
  | cons call calls ih =>
    unfold Relay.accepted Relay.turns
    rw [← List.append_assoc, ← List.append_assoc]
    exact ih (hkept.next h call)

end Kept

end Relay

end Settlement
