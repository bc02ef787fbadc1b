import Settlement.Proofs.Batch.Log
import Settlement.Proofs.Result

namespace Settlement

/-- The calls pass these operations, in order and each of them once. Each call is answered, with one
flag for each of its operations. Windows follow each other without gaps, so this is what the calls
of any settlement do that succeeds. -/
structure Settles (calls : List SettleCall) (operations : List SignedOperation)
    (flags : List Bool) : Prop where
  operations : calls.flatMap SettleCall.operations = operations
  answered : ∀ call ∈ calls, call.answer = .ok call.flags
  aligned : ∀ call ∈ calls, call.flags.length = call.operations.length
  flags : calls.flatMap SettleCall.flags = flags

namespace Settles

variable {calls later : List SettleCall} {operations others : List SignedOperation}
  {flags otherFlags : List Bool}

theorem nil : Settles [] [] [] where
  operations := rfl
  answered _ h := absurd h List.not_mem_nil
  aligned _ h := absurd h List.not_mem_nil
  flags := rfl

theorem append (h : Settles calls operations flags) (hlater : Settles later others otherFlags) :
    Settles (calls ++ later) (operations ++ others) (flags ++ otherFlags) := by
  constructor
  · rw [List.flatMap_append, h.operations, hlater.operations]
  · intro call hmem
    exact (List.mem_append.1 hmem).elim (h.answered call) (hlater.answered call)
  · intro call hmem
    exact (List.mem_append.1 hmem).elim (h.aligned call) (hlater.aligned call)
  · rw [List.flatMap_append, h.flags, hlater.flags]

theorem singleton {call : SettleCall} (hanswer : call.answer = .ok flags)
    (hlength : flags.length = call.operations.length) :
    Settles [call] call.operations flags := by
  have hflags : call.flags = flags := by
    unfold SettleCall.flags
    rw [hanswer]
    rfl
  constructor
  · exact List.flatMap_singleton ..
  · rw [List.forall_mem_singleton, hflags]
    exact hanswer
  · rw [List.forall_mem_singleton, hflags]
    exact hlength
  · rw [List.flatMap_singleton, hflags]

theorem length_flags (h : Settles calls operations flags) : flags.length = operations.length := by
  rw [← h.operations, ← h.flags, List.length_flatMap, List.length_flatMap]
  exact congrArg List.sum (List.map_congr_left h.aligned)

theorem outcomes (h : Settles calls operations flags) :
    calls.flatMap SettleCall.outcomes = operations.zip flags := by
  obtain ⟨rfl, -, haligned, rfl⟩ := h
  induction calls with
  | nil => rfl
  | cons call rest ih =>
    have hrest := ih fun call hmem => haligned call (List.mem_cons_of_mem _ hmem)
    have hcall := haligned call (List.mem_cons_self ..)
    rw [List.flatMap_cons, List.flatMap_cons, List.flatMap_cons, hrest,
      List.zip_append hcall.symm]
    rfl

end Settles

namespace SettleCall

/-- The call is answered with one flag for each of its operations. -/
def Answered (call : SettleCall) : Prop :=
  call.answer = .ok call.flags ∧ call.flags.length = call.operations.length

/-- The call begins at position `start` and fails a settlement with this error: the client refused
it, or answered with another number of flags. -/
inductive Fails (start : Nat) : SettleCall → Error → Prop
  | refused (chunk : List SignedOperation) (cause : Error) :
    Fails start ⟨chunk, .error cause⟩
      (.settlementFailed start (start + chunk.length) cause.message)
  | misaligned (chunk : List SignedOperation) (flags : List Bool)
      (hlength : flags.length ≠ chunk.length) :
    Fails start ⟨chunk, .ok flags⟩ (.settlementResultMismatch chunk.length flags.length)

end SettleCall

variable {σ : Type} [SettlementClient σ]

theorem settleChunk_fails {c next : LoggedClient σ} {start : Nat} {chunk : List SignedOperation}
    {e : Error} (h : settleChunk c start chunk = (.error e, next)) :
    ∃ call : SettleCall, call.operations = chunk ∧ next.calls = c.calls ++ [call] ∧
      call.Fails start e := by
  unfold settleChunk at h
  rw [settle_logged] at h
  generalize SettlementClient.settle c.client chunk = settled at h
  obtain ⟨answer, client⟩ := settled
  refine ⟨⟨chunk, answer⟩, rfl, ?_⟩
  cases answer with
  | error cause =>
    cases h
    exact ⟨rfl, .refused chunk cause⟩
  | ok flags =>
    simp only at h
    split at h
    · cases h
    · next hlength =>
      cases h
      exact ⟨rfl, .misaligned chunk flags hlength⟩

theorem settleChunk_answered {c next : LoggedClient σ} {start : Nat}
    {chunk : List SignedOperation} {flags : List Bool}
    (h : settleChunk c start chunk = (.ok flags, next)) :
    ∃ call : SettleCall, call.operations = chunk ∧ next.calls = c.calls ++ [call] ∧
      call.flags = flags ∧ call.Answered := by
  unfold settleChunk at h
  rw [settle_logged] at h
  generalize SettlementClient.settle c.client chunk = settled at h
  obtain ⟨answer, client⟩ := settled
  refine ⟨⟨chunk, answer⟩, rfl, ?_⟩
  cases answer with
  | error cause => cases h
  | ok results =>
    simp only at h
    split at h
    · next hlength =>
      cases h
      exact ⟨rfl, rfl, rfl, hlength⟩
    · cases h

/-- A chunk has at least one operation and no more than the window has, where a window of length
zero counts as one. -/
private theorem length_chunk_le (op : SignedOperation) (rest : List SignedOperation)
    (window : Nat) : 0 < (op :: rest.take (window - 1)).length ∧
      (op :: rest.take (window - 1)).length ≤ max window 1 := by
  rw [List.length_cons, List.length_take]
  omega

/-- However a settlement ends, its calls pass the operations from the front. If it succeeds they
pass all of them, and the answers are added to what was reported before. -/
theorem settleFrom_calls (c : LoggedClient σ) (window start : Nat) (report : ChunkReport)
    (operations : List SignedOperation) :
    ∃ calls, (settleFrom c window start report operations).2.calls = c.calls ++ calls ∧
      calls.flatMap SettleCall.operations <+: operations ∧
      (∀ call ∈ calls, 0 < call.operations.length ∧ call.operations.length ≤ max window 1) ∧
      ∀ settled, (settleFrom c window start report operations).1 = .ok settled →
        ∃ flags, settled.results = report.results ++ flags ∧ Settles calls operations flags := by
  -- the report carries what was settled before, so it is general in the induction
  fun_induction settleFrom c window start report operations with
  | case1 c start report =>
    refine ⟨[], (List.append_nil _).symm, List.nil_prefix, fun _ h => (List.not_mem_nil h).elim, ?_⟩
    intro settled h
    cases h
    exact ⟨[], (List.append_nil _).symm, .nil⟩
  | case2 c start report op rest chunk e c' h =>
    obtain ⟨call, hcall, hcalls, -⟩ := settleChunk_fails h
    refine ⟨[call], hcalls, ?_, ?_, fun settled h => by cases h⟩
    · rw [List.flatMap_singleton, hcall]
      exact List.cons_prefix_cons.2 ⟨rfl, List.take_prefix ..⟩
    · rw [List.forall_mem_singleton, hcall]
      exact length_chunk_le ..
  | case3 c start report op rest chunk results c' h report' ih =>
    obtain ⟨call, hcall, hcalls, rfl, hanswered⟩ := settleChunk_answered h
    obtain ⟨later, hlater, hfront, hshort, hsettled⟩ := ih
    have hfirst : Settles [call] chunk call.flags := hcall ▸ .singleton hanswered.1 hanswered.2
    have hsplit : op :: rest = chunk ++ rest.drop (window - 1) := by
      rw [List.cons_append, List.take_append_drop]
    refine ⟨call :: later, ?_, ?_, ?_, ?_⟩
    · rw [hlater, hcalls, List.append_assoc]
      rfl
    · rw [List.flatMap_cons, hcall, hsplit]
      exact (List.prefix_append_right_inj _).2 hfront
    · rw [List.forall_mem_cons, hcall]
      exact ⟨length_chunk_le .., hshort⟩
    · intro settled hok
      obtain ⟨flags, hresults, hrest⟩ := hsettled settled hok
      refine ⟨call.flags ++ flags, ?_, ?_⟩
      · rw [hresults, List.append_assoc]
      · rw [hsplit]
        exact hfirst.append hrest

end Settlement
