import Mathlib.Algebra.Order.Floor.Div
import Settlement.Proofs.Batch.Settler
import Settlement.Proofs.Batch.Window
import Settlement.Proofs.ChunkSize

namespace Settlement

/-- The length of the longest of these calls, which is zero if there are none. -/
def longest (calls : List SettleCall) : Nat :=
  (calls.map fun call => call.operations.length).foldr max 0

theorem longest_cons (call : SettleCall) (calls : List SettleCall) :
    longest (call :: calls) = max call.operations.length (longest calls) := rfl

theorem longest_singleton (call : SettleCall) : longest [call] = call.operations.length :=
  Nat.max_zero _

/-- The calls pass windows of the operations, one after the other from the first operation on. -/
structure InWindows (window : Nat) (operations : List SignedOperation) (calls : List SettleCall) :
    Prop where
  window_eq : ∀ k, (hk : k < calls.length) →
    calls[k].operations = (operations.drop (k * window)).take window
  nonempty : ∀ call ∈ calls, call.operations ≠ []
  /-- Only the last call can be shorter. -/
  full : ∀ k, (hk : k + 1 < calls.length) → calls[k].operations.length = window
  /-- Where a window would end if the operations did not end before it: what holds twice their
  number holds every position that is reckoned with. -/
  stop_lt : ∀ k < calls.length, k * window + window < 2 * operations.length

/-- How a settlement by these calls ends: either all of them are answered and the answers are the
results, or the last one fails and its range, or its length and that of the answer, is what the
settlement fails with. -/
inductive Ends (window : Nat) (operations : List SignedOperation) (calls : List SettleCall) :
    Result ChunkReport → Prop
  | completed {report : ChunkReport} (hsettles : Settles calls operations report.results)
      (hlength : calls.length = operations.length ⌈/⌉ window) (hcalls : report.calls = calls.length)
      (hsize : report.chunkSize = window) (hlongest : report.maxCallLength = longest calls) :
      Ends window operations calls (.ok report)
  | broken {before : List SettleCall} {last : SettleCall} {e : Error}
      (hcalls : calls = before ++ [last]) (hanswered : ∀ call ∈ before, call.Answered)
      (hfails : last.Fails (before.length * window) e) : Ends window operations calls (.error e)

/-- The calls pass the operations window by window, the first of them at position `start`. The
outcome is either all that was answered or the error of the last call. What holds of the calls of a
settlement is proved by induction on this. -/
inductive Sends (window : Nat) :
    Nat → List SignedOperation → List SettleCall → Result (List Bool) → Prop
  | done (start : Nat) : Sends window start [] [] (.ok [])
  | fails {start : Nat} {operations : List SignedOperation} {call : SettleCall} {e : Error}
      (hsome : call.operations ≠ []) (hcall : call.operations = operations.take window)
      (hfails : call.Fails start e) : Sends window start operations [call] (.error e)
  | next {start : Nat} {operations : List SignedOperation} {call : SettleCall}
      {calls : List SettleCall} {outcome : Result (List Bool)} (hsome : call.operations ≠ [])
      (hcall : call.operations = operations.take window) (hanswered : call.Answered)
      (hlater : Sends window (start + call.operations.length) (operations.drop window) calls
        outcome) :
    Sends window start operations (call :: calls) (outcome.map (call.flags ++ ·))

theorem ceilDiv_sub {n window : Nat} (hn : 0 < n) (hwindow : 0 < window) :
    (n - window) ⌈/⌉ window + 1 = n ⌈/⌉ window := by
  have hall : n + window - 1 = (n - 1) + window := by omega
  rw [Nat.ceilDiv_eq_add_pred_div, Nat.ceilDiv_eq_add_pred_div, hall, Nat.add_div_right _ hwindow]
  by_cases hle : n ≤ window
  · rw [Nat.div_eq_of_lt (by omega), Nat.div_eq_of_lt (by omega)]
  · have hrest : n - window + window - 1 = n - 1 := by omega
    rw [hrest]

namespace Sends

variable {window start : Nat} {operations : List SignedOperation} {calls : List SettleCall}
  {outcome : Result (List Bool)}

theorem window_pos {call : SettleCall} (hsome : call.operations ≠ [])
    (hcall : call.operations = operations.take window) : 0 < window := by
  apply Nat.pos_of_ne_zero
  rintro rfl
  exact hsome (hcall.trans List.take_zero)

theorem window_eq (h : Sends window start operations calls outcome) {k : Nat}
    (hk : k < calls.length) :
    calls[k].operations = (operations.drop (k * window)).take window := by
  induction h generalizing k with
  | done => exact absurd hk (Nat.not_lt_zero k)
  | fails _ hcall _ =>
    obtain rfl : k = 0 := Nat.lt_one_iff.1 hk
    rw [Nat.zero_mul, List.drop_zero]
    exact hcall
  | next _ hcall _ _ ih =>
    cases k with
    | zero =>
      rw [Nat.zero_mul, List.drop_zero]
      exact hcall
    | succ k =>
      have hrest := ih (Nat.lt_of_succ_lt_succ hk)
      rw [List.drop_drop, Nat.add_comm window, ← Nat.succ_mul] at hrest
      exact hrest

theorem nonempty (h : Sends window start operations calls outcome) :
    ∀ call ∈ calls, call.operations ≠ [] := by
  induction h with
  | done => exact fun _ hmem => absurd hmem List.not_mem_nil
  | fails hsome _ _ => exact List.forall_mem_singleton.2 hsome
  | next hsome _ _ _ ih => exact List.forall_mem_cons.2 ⟨hsome, ih⟩

theorem start_lt (h : Sends window start operations calls outcome) {k : Nat}
    (hk : k < calls.length) : k * window < operations.length := by
  have hsome := h.nonempty calls[k] (List.getElem_mem hk)
  by_contra hnot
  rw [h.window_eq hk, List.drop_eq_nil_of_le (Nat.le_of_not_lt hnot), List.take_nil] at hsome
  exact hsome rfl

theorem length_of_lt (h : Sends window start operations calls outcome) {k : Nat}
    (hk : k + 1 < calls.length) : calls[k].operations.length = window := by
  have hnext := h.start_lt hk
  rw [Nat.succ_mul] at hnext
  rw [h.window_eq, List.length_take, List.length_drop]
  omega

theorem settles (h : Sends window start operations calls outcome) {flags : List Bool}
    (hok : outcome = .ok flags) : Settles calls operations flags := by
  induction h generalizing flags with
  | done =>
    cases hok
    exact .nil
  | fails => cases hok
  | @next start operations call calls outcome _ hcall hanswered _ ih =>
    obtain ⟨later, hlater, rfl⟩ := Result.map_eq_ok_iff.1 hok
    have hfirst : Settles [call] (operations.take window) call.flags :=
      hcall ▸ .singleton hanswered.1 hanswered.2
    have hall := hfirst.append (ih hlater)
    rw [List.take_append_drop] at hall
    exact hall

theorem length_eq (h : Sends window start operations calls outcome) {flags : List Bool}
    (hok : outcome = .ok flags) : calls.length = operations.length ⌈/⌉ window := by
  induction h generalizing flags with
  | done => exact (zero_ceilDiv window).symm
  | fails => cases hok
  | @next start operations call calls outcome hsome hcall hanswered _ ih =>
    obtain ⟨later, hlater, -⟩ := Result.map_eq_ok_iff.1 hok
    have hpos : 0 < operations.length :=
      List.length_pos_iff.2 fun hnil => hsome (by rw [hcall, hnil, List.take_nil])
    rw [List.length_cons, ih hlater, List.length_drop, ceilDiv_sub hpos (window_pos hsome hcall)]

theorem breaks (h : Sends window start operations calls outcome) {e : Error}
    (herror : outcome = .error e) :
    ∃ before last, calls = before ++ [last] ∧ (∀ call ∈ before, call.Answered) ∧
      last.Fails (start + before.length * window) e := by
  induction h with
  | done => cases herror
  | @fails start operations call e _ _ hfails =>
    cases herror
    refine ⟨[], call, rfl, fun _ hmem => absurd hmem List.not_mem_nil, ?_⟩
    rw [List.length_nil, Nat.zero_mul]
    exact hfails
  | @next start operations call calls outcome hsome hcall hanswered hlater ih =>
    have herror' : outcome = .error e := by
      cases outcome with
      | error cause =>
        cases herror
        rfl
      | ok flags => cases herror
    obtain ⟨before, last, rfl, hbefore, hfails⟩ := ih herror'
    -- a call follows this one, so this one is of full length
    have hfull : call.operations.length = window := by
      have hall : Sends window start operations (call :: (before ++ [last])) _ :=
        .next hsome hcall hanswered hlater
      exact hall.length_of_lt (k := 0) (by simp)
    have hstart : start + call.operations.length + before.length * window =
        start + (call :: before).length * window := by
      rw [hfull, List.length_cons, Nat.succ_mul]
      omega
    exact ⟨call :: before, last, rfl, List.forall_mem_cons.2 ⟨hanswered, hbefore⟩, hstart ▸ hfails⟩

end Sends

/-- The report after these calls, which were answered with these flags: the results are written one
after the other, and the longest call is that of both. -/
def ChunkReport.extend (report : ChunkReport) (calls : List SettleCall) (flags : List Bool) :
    ChunkReport :=
  { report with
    results := report.results ++ flags
    calls := report.calls + calls.length
    maxCallLength := max report.maxCallLength (longest calls) }

theorem ChunkReport.extend_nil (report : ChunkReport) : report.extend [] [] = report := by
  simp [ChunkReport.extend, longest]

theorem ChunkReport.extend_cons (report : ChunkReport) (call : SettleCall)
    (calls : List SettleCall) (flags : List Bool) :
    (report.extend [call] call.flags).extend calls flags =
      report.extend (call :: calls) (call.flags ++ flags) := by
  have hmax : max (max report.maxCallLength (longest [call])) (longest calls) =
      max report.maxCallLength (longest (call :: calls)) := by
    rw [longest_singleton, longest_cons, Nat.max_assoc]
  have hcount : report.calls + [call].length + calls.length =
      report.calls + (call :: calls).length := by
    rw [List.length_singleton, List.length_cons]
    omega
  simp only [ChunkReport.extend, hmax, hcount, List.append_assoc]

section send

variable {σ : Type} [SettlementClient σ]

/-- From any position on, a settlement sends the windows of the operations that are left, and their
outcome is added to its report. The induction is on the number of operations that are left. -/
theorem settleFrom_sends (c : LoggedClient σ) {window : Nat} (hwindow : 0 < window) (start : Nat)
    (report : ChunkReport) (operations : List SignedOperation) :
    ∃ calls outcome next,
      settleFrom c window start report operations =
        (outcome.map (report.extend calls), next) ∧
      next.calls = c.calls ++ calls ∧ Sends window start operations calls outcome := by
  obtain ⟨k, rfl⟩ := Nat.exists_eq_add_one.2 hwindow
  fun_induction settleFrom c (k + 1) start report operations with
  | case1 c start report =>
    refine ⟨[], .ok [], c, ?_, (List.append_nil _).symm, .done start⟩
    rw [Except.map, ChunkReport.extend_nil]
  | case2 c start report op rest chunk e c' h =>
    obtain ⟨call, hcall, hcalls, hfails⟩ := settleChunk_fails h
    have hsome : call.operations ≠ [] := hcall ▸ List.cons_ne_nil _ _
    exact ⟨[call], .error e, c', rfl, hcalls, .fails hsome hcall hfails⟩
  | case3 c start report op rest chunk results c' h report' ih =>
    obtain ⟨call, hcall, hcalls, rfl, hanswered⟩ := settleChunk_answered h
    obtain ⟨calls, outcome, last, hsettled, hlater, hsends⟩ := ih
    have hsome : call.operations ≠ [] := hcall ▸ List.cons_ne_nil _ _
    have hlongest : longest [call] = chunk.length := by
      rw [longest_singleton, hcall]
    have hreport : report' = report.extend [call] call.flags := by
      rw [ChunkReport.extend, hlongest]
      rfl
    refine ⟨call :: calls, outcome.map (call.flags ++ ·), last, ?_, ?_, ?_⟩
    · rw [hsettled, hreport]
      cases outcome with
      | error e => rfl
      | ok flags => simp only [Except.map, ChunkReport.extend_cons]
    · rw [hlater, hcalls, List.append_assoc, List.singleton_append]
    · rw [← hcall] at hsends
      exact .next hsome hcall hanswered hsends

theorem settleChunked_sends (chunking : Bool) (c : LoggedClient σ)
    (operations : List SignedOperation) :
    let window := windowFor chunking operations.length
    ∃ calls outcome next,
      settleChunked chunking c operations =
        (outcome.map fun flags => ⟨flags, window, calls.length, longest calls⟩, next) ∧
      next.calls = c.calls ++ calls ∧ Sends window 0 operations calls outcome := by
  intro window
  unfold settleChunked
  by_cases hnone : operations = []
  · -- the window may be empty then
    subst hnone
    refine ⟨[], .ok [], c, ?_, (List.append_nil _).symm, .done 0⟩
    rw [settleFrom]
    rfl
  · have hwindow : 0 < window := windowFor_pos chunking (List.length_pos_iff.2 hnone)
    obtain ⟨calls, outcome, next, hsettled, hcalls, hsends⟩ :=
      settleFrom_sends c hwindow 0 ⟨[], window, 0, 0⟩ operations
    have hreport : (⟨[], window, 0, 0⟩ : ChunkReport).extend calls =
        fun flags => ⟨flags, window, calls.length, longest calls⟩ := by
      funext flags
      simp only [ChunkReport.extend, List.nil_append, Nat.zero_add, Nat.zero_max]
    rw [hreport] at hsettled
    exact ⟨calls, outcome, next, hsettled, hcalls, hsends⟩

namespace ChunkedSettler

/-- The calls by which a settler settles operations, or tries to. -/
def calls (s : ChunkedSettler) (client : σ) (operations : List SignedOperation) :
    List SettleCall :=
  (s.settle (⟨client, []⟩ : LoggedClient σ) operations).2.2.calls

/-- A settler, whatever it settled before, sends the windows of the operations one after the other.
It ends with all answers, or with the first call that fails, which it names. -/
theorem settle_in_windows (s : ChunkedSettler) (client : σ) (operations : List SignedOperation) :
    let window := windowFor s.chunking operations.length
    let calls := s.calls client operations
    InWindows window operations calls ∧
      Ends window operations calls (s.settle client operations).1 := by
  intro window calls
  obtain ⟨sent, outcome, next, hsettled, hcalls, hsends⟩ :=
    settleChunked_sends s.chunking (⟨client, []⟩ : LoggedClient σ) operations
  have hsent : calls = sent := by
    simp only [calls, ChunkedSettler.calls, settle_eq, hsettled]
    exact hcalls
  have houtcome : (s.settle client operations).1 =
      outcome.map fun flags => ⟨flags, window, sent.length, longest sent⟩ := by
    have hclient := settleChunked_client s.chunking (⟨client, []⟩ : LoggedClient σ) operations
    rw [settle_eq, hclient, hsettled]
  rw [hsent, houtcome]
  refine ⟨⟨fun k hk => hsends.window_eq hk, hsends.nonempty, fun k hk => hsends.length_of_lt hk,
    fun k hk => ?_⟩, ?_⟩
  · have hstart : k * window < operations.length := hsends.start_lt hk
    have hwindow : window ≤ operations.length := windowFor_le ..
    omega
  · cases outcome with
    | ok flags => exact .completed (hsends.settles rfl) (hsends.length_eq rfl) rfl rfl rfl
    | error e =>
      obtain ⟨before, last, hlast, hbefore, hfails⟩ := hsends.breaks rfl
      rw [Nat.zero_add] at hfails
      exact .broken hlast hbefore hfails

end ChunkedSettler

end send

end Settlement
