import Settlement.Proofs.Ledger.Roles
import Settlement.Token.Pool

namespace Settlement

/-- The guardian that a request appoints, whether there was one before or not. -/
def Request.guardian? : Request → Option Address
  | .setGuardian guardian => some guardian
  | _ => none

namespace Governance

variable {g g' : Governance} {ctx : CallContext} {request : Request}

theorem Moved.guardian_eq (h : g.Moved ctx request g') :
    g'.guardian = request.guardian?.or g.guardian := by
  cases h with
  | kept hfree hnone =>
    cases request with
    | setGuardian _ => cases hnone
    | _ => rfl
  | acted _ _ hnone =>
    cases request with
    | setGuardian _ => cases hnone
    | _ => rfl
  | struck => rfl
  | changed hchanged =>
    cases hchanged with
    | _ => rfl

theorem Moved.guardianEverConfigured (h : g.Moved ctx request g')
    (hever : g.guardianEverConfigured = true) : g'.guardianEverConfigured = true := by
  cases h with
  | changed hchanged =>
    cases hchanged with
    | guarded => rfl
    | _ => exact hever
  | _ => exact hever

end Governance

namespace Ledger

variable {τ : Type} [PayoutToken τ] {l : Ledger τ} {call : Call}

/-- The guardians that were appointed in a run, in order. Refused requests appoint nobody. -/
def appointments (l : Ledger τ) (events : List (Event τ)) : List Address :=
  (l.granted events).filterMap (·.request.guardian?)

theorem appointments_append_request (l : Ledger τ) (events : List (Event τ)) (call : Call) :
    l.appointments (events ++ [.request call]) =
      l.appointments events ++ ((l.after events).grant call).filterMap (·.request.guardian?) := by
  rw [appointments, granted, gather_append_request, List.filterMap_append]
  rfl

theorem appointments_append_token (l : Ledger τ) (events : List (Event τ)) (change : τ → τ) :
    l.appointments (events ++ [.token change]) = l.appointments events := by
  rw [appointments, granted, gather_append_token]
  rfl

theorem guardian_after (l : Ledger τ) (events : List (Event τ)) :
    (l.after events).governance.guardian =
      (l.appointments events).getLast?.or l.governance.guardian := by
  induction events using Event.list_induction with
  | nil => rfl
  | token events change ih =>
    rw [after_append_token, appointments_append_token]
    exact ih
  | request events call ih =>
    rw [after_append_request, appointments_append_request]
    rcases roles (l.after events) call with ⟨hrefused, hsame⟩ | ⟨hgranted, hmoved⟩
    · rw [hrefused, hsame.governance, ih, List.filterMap_nil, List.append_nil]
    · rw [hgranted, hmoved.governance.guardian_eq, ih]
      cases hguardian : call.request.guardian? with
      | none => simp [hguardian]
      | some guardian => simp [hguardian]

theorem guardianEverConfigured_after (hever : l.governance.guardianEverConfigured = true)
    (events : List (Event τ)) : (l.after events).governance.guardianEverConfigured = true :=
  governance_after_of_step (P := fun g => g.guardianEverConfigured = true)
    (fun hever hmoved => hmoved.guardianEverConfigured hever) hever events

theorem halt_step_of_unhalt (hever : l.governance.guardianEverConfigured = true)
    (hguardian : l.governance.guardian = some call.ctx.caller) (hrequest : call.request = .unhalt) :
    (l.step call).halt = ⟨none⟩ := by
  have hunhalt : l.halt.unhalt call.ctx l.governance = .ok ⟨none⟩ :=
    HaltSwitch.unhalt_of_guardian hever hguardian
  unfold step
  rw [hrequest]
  simp [handle, handle.done, liftHalt, commitIf, hunhalt, hever, Outcome.map]

/-- The halt is ended by whoever is the guardian at that time, by nobody else and in no other
way. -/
theorem isHalted_step_eq_false_iff (hever : l.governance.guardianEverConfigured = true)
    (hhalted : l.isHalted = true) :
    (l.step call).isHalted = false ↔
      call.request = .unhalt ∧ l.governance.guardian = some call.ctx.caller := by
  unfold isHalted at *
  constructor
  · intro hlifted
    rcases roles l call with ⟨-, hsame⟩ | ⟨-, hmoved⟩
    · rw [hsame.halt, hhalted] at hlifted
      cases hlifted
    · have hhalt := hmoved.halt
      generalize (l.step call).halt = h' at hlifted hhalt
      generalize call.request = request at hhalt
      cases hhalt with
      | kept =>
        rw [hhalted] at hlifted
        cases hlifted
      | raised => cases hlifted
      | lifted hallowed =>
        rcases hallowed with ⟨-, hguardian⟩ | ⟨hnever, -⟩
        · exact ⟨rfl, hguardian⟩
        · rw [hever] at hnever
          cases hnever
  · rintro ⟨hrequest, hguardian⟩
    rw [halt_step_of_unhalt hever hguardian hrequest]
    rfl

variable {who : Address} {later : List (Event τ)}

/-- Once there has been a guardian, a halt outlasts whatever somebody else does alone, such as the
authority, exactly if they never ask for its end when the last guardian appointed meanwhile is they
themselves. An authority that does not appoint itself leaves the halt to the guardian. -/
theorem isHalted_throughout_iff (hhalted : l.isHalted = true)
    (hever : l.governance.guardianEverConfigured = true)
    (hother : l.governance.guardian ≠ some who)
    (hcaller : ∀ call ∈ later.filterMap Event.call?, call.ctx.caller = who) :
    (∀ first, first <+: later → (l.after first).isHalted = true) ↔
      ∀ first call rest, later = first ++ .request call :: rest → call.request = .unhalt →
        (l.appointments first).getLast? ≠ some who := by
  constructor
  · rintro hthroughout first call rest rfl hrequest happointed
    have hprefix : first ++ [.request call] <+: first ++ .request call :: rest :=
      ⟨rest, by rw [List.append_assoc]; rfl⟩
    have hguardian : (l.after first).governance.guardian = some call.ctx.caller := by
      rw [guardian_after, happointed, hcaller call (by simp [Event.call?])]
      rfl
    have hlifted := (isHalted_step_eq_false_iff (guardianEverConfigured_after hever first)
      (hthroughout first (List.prefix_append _ _))).2 ⟨hrequest, hguardian⟩
    have hhalted := hthroughout _ hprefix
    rw [after_append_request, hlifted] at hhalted
    cases hhalted
  · intro hkept first hfirst
    induction first using Event.list_induction with
    | nil => exact hhalted
    | token first change ih =>
      rw [after_append_token]
      exact ih ((List.prefix_append _ _).trans hfirst)
    | request first call ih =>
      have ih := ih ((List.prefix_append _ _).trans hfirst)
      rw [after_append_request, ← Bool.not_eq_false, isHalted_step_eq_false_iff
        (guardianEverConfigured_after hever first) ih, guardian_after]
      rintro ⟨hrequest, hguardian⟩
      obtain ⟨rest, rfl⟩ := hfirst
      rw [hcaller call (by simp [Event.call?]), Option.or_eq_some_iff] at hguardian
      -- The guardian who ends the halt was appointed meanwhile, as it was somebody else before.
      rcases hguardian with happointed | ⟨-, hguardian⟩
      · exact hkept first call rest (List.append_assoc ..) hrequest happointed
      · exact hother hguardian

/-- The authority raises the halt. From here on it can be lifted or not. -/
def haltRun : List (Event PoolToken) := [.request ⟨⟨⟨1⟩, .epoch, 1⟩, .halt⟩]

/-- The authority tries to end the halt, with another guardian than before. -/
def replacedGuardianRun : List (Event PoolToken) :=
  [.request ⟨⟨⟨1⟩, .epoch, 1⟩, .setGuardian ⟨3⟩⟩, .request ⟨⟨⟨1⟩, .epoch, 1⟩, .unhalt⟩]

/-- The authority has appointed somebody else, so its attempt to end the halt is refused. -/
theorem isHalted_throughout_iff_of_replaced : ∃ l : Ledger PoolToken,
    Ledger.start {} ⟨1⟩ (some ⟨2⟩) .empty .epoch = .ok l ∧
      (l.after haltRun).isHalted = true ∧
      (l.after haltRun).governance.guardianEverConfigured = true ∧
      (l.after haltRun).governance.guardian ≠ some ⟨1⟩ ∧
      (∀ call ∈ replacedGuardianRun.filterMap Event.call?, call.ctx.caller = ⟨1⟩) ∧
      ∀ first, first <+: replacedGuardianRun → ((l.after haltRun).after first).isHalted = true := by
  obtain ⟨l, hstart, hhalted, hever, hother, hcaller, happointed⟩ : ∃ l : Ledger PoolToken,
      Ledger.start {} ⟨1⟩ (some ⟨2⟩) .empty .epoch = .ok l ∧
        (l.after haltRun).isHalted = true ∧
        (l.after haltRun).governance.guardianEverConfigured = true ∧
        (l.after haltRun).governance.guardian ≠ some ⟨1⟩ ∧
        (∀ call ∈ replacedGuardianRun.filterMap Event.call?, call.ctx.caller = ⟨1⟩) ∧
        (l.after haltRun).appointments (replacedGuardianRun.take 1) = [⟨3⟩] :=
    ⟨_, rfl, by decide +kernel, by decide +kernel, by decide +kernel, by decide +kernel,
      by decide +kernel⟩
  refine ⟨l, hstart, hhalted, hever, hother, hcaller,
    (isHalted_throughout_iff hhalted hever hother hcaller).2 fun first call rest hsplit hrequest => ?_⟩
  have hfirst : first = replacedGuardianRun.take 1 := by
    match first with
    | [] =>
      cases hsplit
      cases hrequest
    | [_] =>
      cases hsplit
      rfl
    | _ :: _ :: _ => simp [replacedGuardianRun] at hsplit
  rw [hfirst, happointed]
  decide

/-- The authority appoints itself as the guardian, and then ends the halt as such. -/
def selfAppointedRun : List (Event PoolToken) :=
  [.request ⟨⟨⟨1⟩, .epoch, 1⟩, .setGuardian ⟨1⟩⟩, .request ⟨⟨⟨1⟩, .epoch, 1⟩, .unhalt⟩]

/-- The authority ends its own halt, although there has been a guardian and it was somebody else. -/
theorem not_isHalted_of_selfAppointed : ∃ l : Ledger PoolToken,
    Ledger.start {} ⟨1⟩ (some ⟨2⟩) .empty .epoch = .ok l ∧
      (l.after haltRun).isHalted = true ∧
      (l.after haltRun).governance.guardianEverConfigured = true ∧
      (l.after haltRun).governance.authority = ⟨1⟩ ∧
      (l.after haltRun).governance.guardian ≠ some ⟨1⟩ ∧
      (∀ call ∈ selfAppointedRun.filterMap Event.call?, call.ctx.caller = ⟨1⟩) ∧
      ((l.after haltRun).after selfAppointedRun).isHalted = false :=
  ⟨_, rfl, by decide +kernel, by decide +kernel, by decide +kernel, by decide +kernel,
    by decide +kernel, by decide +kernel⟩

end Ledger

end Settlement
