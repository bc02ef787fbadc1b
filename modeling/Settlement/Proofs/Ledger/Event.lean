import Mathlib.Data.List.Induction
import Settlement.Proofs.Ledger.Effect

namespace Settlement

/-- A request, or a change of the token from outside. Between two requests the token may change in
any way, since it belongs to others as well; everything else changes by requests alone. -/
inductive Event (τ : Type)
  | request (call : Call)
  | token (change : τ → τ)

/-- The request that an event is. Changes of the token have none, and no time either. -/
def Event.call? {τ : Type} : Event τ → Option Call
  | .request call => some call
  | .token _ => none

/-- Induction over the events so far, by what comes last: a run is followed through its states from
the front, so the last event is the one that meets a known state. -/
@[elab_as_elim]
theorem Event.list_induction {τ : Type} {motive : List (Event τ) → Prop} (nil : motive [])
    (token : ∀ events change, motive events → motive (events ++ [.token change]))
    (request : ∀ events call, motive events → motive (events ++ [.request call]))
    (events : List (Event τ)) : motive events := by
  induction events using List.reverseRecOn with
  | nil => exact nil
  | append_singleton events event ih =>
    cases event with
    | request call => exact request events call ih
    | token change => exact token events change ih

/-- Times never decrease from one request to the next, in the order that times have. -/
def InOrder {τ : Type} (events : List (Event τ)) : Prop :=
  (events.filterMap Event.call?).Pairwise fun earlier later => earlier.ctx.now ≤ later.ctx.now

instance {τ : Type} (events : List (Event τ)) : Decidable (InOrder events) :=
  inferInstanceAs (Decidable (List.Pairwise _ _))

theorem InOrder.le_of_append_request {τ : Type} {events : List (Event τ)} {earlier call : Call}
    (h : InOrder (events ++ [.request call])) (hearlier : earlier ∈ events.filterMap Event.call?) :
    earlier.ctx.now ≤ call.ctx.now := by
  rw [InOrder, List.filterMap_append] at h
  exact (List.pairwise_append.1 h).2.2 earlier hearlier call (List.mem_singleton_self _)

theorem InOrder.le_of_mem_later {τ : Type} {before later : List (Event τ)} {call next : Call}
    (h : InOrder (before ++ .request call :: later)) (hnext : next ∈ later.filterMap Event.call?) :
    call.ctx.now ≤ next.ctx.now := by
  rw [InOrder, List.filterMap_append] at h
  exact List.rel_of_pairwise_cons (List.pairwise_append.1 h).2.1 hnext

/-- A run in order can be continued by a request that comes no earlier than the last one. -/
theorem InOrder.append_request {τ : Type} {events : List (Event τ)} {last call : Call}
    (h : InOrder (events ++ [.request last])) (hle : last.ctx.now ≤ call.ctx.now) :
    InOrder (events ++ [.request last, .request call]) := by
  have hlast : ∀ earlier ∈ events.filterMap Event.call?, earlier.ctx.now ≤ last.ctx.now :=
    fun _ hearlier => h.le_of_append_request hearlier
  rw [InOrder, List.filterMap_append] at *
  refine List.pairwise_append.2 ⟨(List.pairwise_append.1 h).1, List.pairwise_pair.2 hle, ?_⟩
  intro earlier hearlier later hlater
  rcases List.mem_cons.1 hlater with rfl | hlater
  · exact hlast earlier hearlier
  · rw [List.mem_singleton.1 hlater]
    exact Int.le_trans (hlast earlier hearlier) hle

namespace Ledger

variable {τ : Type}

theorem eq_of_start {policy : ProtocolPolicy} {authority : Address} {guardian : Option Address}
    {token : τ} {now : Timestamp} {l : Ledger τ}
    (h : Ledger.start policy authority guardian token now = .ok l) :
    policy.validate = .ok () ∧ ∃ governance era, governance.policy = policy.recovery ∧
      Era.start policy.era now = .ok era ∧
      l = { era, eraPolicy := policy.era, claimPolicy := policy.claims, domain := policy.domain,
            governance, token } := by
  obtain ⟨_, hvalid, h⟩ := Result.bind_eq_ok_iff.1 h
  obtain ⟨governance, hgovernance, h⟩ := Result.bind_eq_ok_iff.1 h
  obtain ⟨era, hera, h⟩ := Result.bind_eq_ok_iff.1 h
  obtain ⟨_, -, hgovernance⟩ := Result.bind_eq_ok_iff.1 hgovernance
  obtain ⟨_, -, hgovernance⟩ := Result.bind_eq_ok_iff.1 hgovernance
  cases hgovernance
  cases h
  exact ⟨hvalid, _, era, rfl, hera, rfl⟩

theorem start_eq_ok {policy : ProtocolPolicy} {authority : Address} {guardian : Option Address}
    {token : τ} {now : Timestamp} {l : Ledger τ}
    (h : Ledger.start policy authority guardian token now = .ok l) :
    policy.validate = .ok () ∧ l.claimPolicy = policy.claims ∧ l.funds = {} ∧ l.registry = {} ∧
      l.token = token := by
  obtain ⟨hvalid, governance, era, -, -, rfl⟩ := eq_of_start h
  exact ⟨hvalid, rfl, rfl, rfl, rfl⟩

variable [PayoutToken τ]

/-- The state after an event. A change of the token leaves everything else alone. -/
def next (l : Ledger τ) : Event τ → Ledger τ
  | .request call => l.step call
  | .token change => { l with token := change l.token }

/-- The state after a sequence of events, whatever is answered on the way. -/
def after (l : Ledger τ) (events : List (Event τ)) : Ledger τ := events.foldl next l

theorem after_append (l : Ledger τ) (first second : List (Event τ)) :
    l.after (first ++ second) = (l.after first).after second := List.foldl_append

theorem after_append_request (l : Ledger τ) (events : List (Event τ)) (call : Call) :
    l.after (events ++ [.request call]) = (l.after events).step call := by
  rw [after, List.foldl_append]
  rfl

theorem after_append_token (l : Ledger τ) (events : List (Event τ)) (change : τ → τ) :
    l.after (events ++ [.token change]) =
      { l.after events with token := change (l.after events).token } := by
  rw [after, List.foldl_append]
  rfl

theorem after_of_next {P : Ledger τ → Prop} (hnext : ∀ l event, P l → P (l.next event))
    {l : Ledger τ} (h : P l) (events : List (Event τ)) : P (l.after events) := by
  induction events generalizing l with
  | nil => exact h
  | cons event rest ih => exact ih (hnext l event h)

/-- What every call of some kind keeps holds after any events whose calls are all of that kind. -/
theorem after_of_calls {P : Ledger τ → Prop} {A : Call → Prop}
    (hstep : ∀ l call, A call → P l → P (l.step call))
    (htoken : ∀ l (change : τ → τ), P l → P { l with token := change l.token })
    {l : Ledger τ} (h : P l) {events : List (Event τ)}
    (hcalls : ∀ call ∈ events.filterMap Event.call?, A call) : P (l.after events) := by
  induction events generalizing l with
  | nil => exact h
  | cons event rest ih =>
    cases event with
    | token change => exact ih (htoken l change h) hcalls
    | request call =>
      obtain ⟨hcall, hrest⟩ := List.forall_mem_cons.1 hcalls
      exact ih (hstep l call hcall h) hrest

section gather

variable {α : Type} {f : Ledger τ → Call → List α}

/-- What the requests of a run give rise to, in order. -/
def gather (f : Ledger τ → Call → List α) (l : Ledger τ) : List (Event τ) → List α
  | [] => []
  | .request call :: rest => f l call ++ gather f (l.step call) rest
  | .token change :: rest => gather f { l with token := change l.token } rest

theorem gather_append (f : Ledger τ → Call → List α) (l : Ledger τ)
    (first second : List (Event τ)) :
    l.gather f (first ++ second) = l.gather f first ++ (l.after first).gather f second := by
  induction first generalizing l with
  | nil => rfl
  | cons event rest ih =>
    cases event with
    | request call =>
      rw [List.cons_append, gather, gather, ih, ← List.append_assoc]
      rfl
    | token change => exact ih _

theorem gather_append_request (f : Ledger τ → Call → List α) (l : Ledger τ)
    (events : List (Event τ)) (call : Call) :
    l.gather f (events ++ [.request call]) = l.gather f events ++ f (l.after events) call := by
  rw [gather_append, gather, gather, List.append_nil]

theorem gather_append_token (f : Ledger τ → Call → List α) (l : Ledger τ)
    (events : List (Event τ)) (change : τ → τ) :
    l.gather f (events ++ [.token change]) = l.gather f events := by
  rw [gather_append, gather, gather, List.append_nil]

/-- What is gathered from a run comes from one of its requests, in the state that it meets. -/
theorem exists_of_mem_gather {a : α} {l : Ledger τ} {events : List (Event τ)}
    (h : a ∈ l.gather f events) :
    ∃ before call rest, events = before ++ .request call :: rest ∧ a ∈ f (l.after before) call := by
  induction events generalizing l with
  | nil => cases h
  | cons event rest ih =>
    cases event with
    | request first =>
      rcases List.mem_append.1 h with hfirst | hrest
      · exact ⟨[], first, rest, rfl, hfirst⟩
      · obtain ⟨before, call, rest, rfl, ha⟩ := ih hrest
        exact ⟨.request first :: before, call, rest, rfl, ha⟩
    | token change =>
      obtain ⟨before, call, rest, rfl, ha⟩ := ih h
      exact ⟨.token change :: before, call, rest, rfl, ha⟩

/-- What is gathered one call at a time, if at all, are calls of the run. -/
theorem mem_calls_of_mem_gather {f : Ledger τ → Call → List Call}
    (hself : ∀ l call, f l call ⊆ [call]) {l : Ledger τ} {events : List (Event τ)} {call : Call}
    (h : call ∈ l.gather f events) : call ∈ events.filterMap Event.call? := by
  obtain ⟨before, first, rest, rfl, hfirst⟩ := exists_of_mem_gather h
  rw [List.mem_singleton.1 (hself _ _ hfirst), List.filterMap_append]
  exact List.mem_append_right _ List.mem_cons_self

/-- What holds of a state and of all that led to it, if every event keeps it so. -/
theorem gather_of_next {P : Ledger τ → List α → Prop}
    (hstep : ∀ l call before, P l before → P (l.step call) (before ++ f l call))
    (htoken : ∀ l (change : τ → τ) before, P l before →
      P { l with token := change l.token } before)
    {l : Ledger τ} {before : List α} (h : P l before) (events : List (Event τ)) :
    P (l.after events) (before ++ l.gather f events) := by
  induction events generalizing l before with
  | nil =>
    rw [gather, List.append_nil]
    exact h
  | cons event rest ih =>
    cases event with
    | request call =>
      rw [gather, ← List.append_assoc]
      exact ih (hstep l call before h)
    | token change => exact ih (htoken l change before h)

/-- What a run leaves in a place that was empty was put there by one of its requests, and no request
after it has disturbed the place. -/
theorem exists_last_of_after {β : Type} {v : Ledger τ → Option β}
    {Puts : Ledger τ → Call → β → Prop}
    (hstep : ∀ l call b, v (l.step call) = some b →
      Puts l call b ∨ (f l call = [] ∧ v l = some b))
    (htoken : ∀ l (change : τ → τ), v { l with token := change l.token } = v l)
    {l : Ledger τ} (hnone : v l = none) {events : List (Event τ)} {b : β}
    (h : v (l.after events) = some b) :
    ∃ first call second, events = first ++ .request call :: second ∧ Puts (l.after first) call b ∧
      ((l.after first).step call).gather f second = [] := by
  induction events using Event.list_induction with
  | nil =>
    rw [after, List.foldl_nil, hnone] at h
    cases h
  | token events change ih =>
    rw [after_append_token, htoken] at h
    obtain ⟨first, call, second, rfl, hputs, hquiet⟩ := ih h
    refine ⟨first, call, second ++ [.token change], ?_, hputs, ?_⟩
    · rw [List.append_assoc, List.cons_append]
    · rw [gather_append_token, hquiet]
  | request events last ih =>
    rw [after_append_request] at h
    rcases hstep _ _ _ h with hputs | ⟨hundisturbed, hbefore⟩
    · exact ⟨events, last, [], rfl, hputs, rfl⟩
    · obtain ⟨first, call, second, rfl, hputs, hquiet⟩ := ih hbefore
      refine ⟨first, call, second ++ [.request last], ?_, hputs, ?_⟩
      · rw [List.append_assoc, List.cons_append]
      · rw [after_append] at hundisturbed
        rw [gather_append_request, hquiet]
        exact hundisturbed

end gather

end Ledger

end Settlement
