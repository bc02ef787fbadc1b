import Settlement.Proofs.Ledger.Roles
import Settlement.Proofs.Time
import Settlement.Token.Pool

namespace Settlement

/-- Whether the request names a successor. Whom it names does not matter. -/
def Request.designates : Request → Bool
  | .designateRecovery _ => true
  | _ => false

/-- A granted request of this kind shows that the authority is active, or that there is a new
one. -/
def Governance.showsActivity (g : Governance) : Request → Bool
  | .acceptAuthority => true
  | request => g.reserves request

namespace Ledger

variable {τ : Type} [PayoutToken τ] {l : Ledger τ} {call : Call} {events : List (Event τ)}

section grantOf

variable {kind : Governance → Request → Bool}

/-- The request of a call, if it is of this kind and granted. -/
def grantOf (kind : Governance → Request → Bool) (l : Ledger τ) (call : Call) : List Call :=
  if kind l.governance call.request then l.grant call else []

theorem grantOf_of_kind (h : kind l.governance call.request = true) :
    l.grantOf kind call = l.grant call := if_pos h

theorem grantOf_of_not_kind (h : kind l.governance call.request = false) :
    l.grantOf kind call = [] := by
  simp [grantOf, h]

theorem grantOf_of_refused (h : l.grant call = []) : l.grantOf kind call = [] := by
  simp [grantOf, h]

theorem grantOf_subset (kind : Governance → Request → Bool) (l : Ledger τ) (call : Call) :
    l.grantOf kind call ⊆ [call] := by
  unfold grantOf grant
  split_ifs <;> simp

end grantOf

/-- The granted requests of a run that show the authority to be active. -/
def acts (l : Ledger τ) (events : List (Event τ)) : List Call :=
  l.gather (grantOf Governance.showsActivity) events

/-- The granted requests of a run that name a successor. The last of them is the one that counts. -/
def designations (l : Ledger τ) (events : List (Event τ)) : List Call :=
  l.gather (grantOf fun _ => Request.designates) events

theorem acts_append_request (l : Ledger τ) (events : List (Event τ)) (call : Call) :
    l.acts (events ++ [.request call]) =
      l.acts events ++ (l.after events).grantOf Governance.showsActivity call :=
  gather_append_request ..

theorem acts_append_token (l : Ledger τ) (events : List (Event τ)) (change : τ → τ) :
    l.acts (events ++ [.token change]) = l.acts events := gather_append_token ..

/-- The guardian names a successor, after a liveness window without an action of the authority. -/
structure Designated (l : Ledger τ) (designation : Call) (address : Address) : Prop where
  request : designation.request = .designateRecovery address
  granted : l.grant designation = [designation]
  guardian : l.governance.guardian = some designation.ctx.caller
  silent : l.governance.lastAuthorityAction.after l.governance.policy.livenessWindow ≤
    designation.ctx.now

theorem Designated.grantOf_eq_nil {address : Address} (h : Designated l call address) :
    l.grantOf Governance.showsActivity call = [] := by
  apply grantOf_of_not_kind
  rw [h.request]
  rfl

/-- What a call does about the silence of the authority and about its successor. A successor who
takes over is active from then on, but none of this is an action of the authority that was
replaced. -/
inductive Watched (l : Ledger τ) (call : Call) (g : Governance) : Prop
  | acted (hact : l.grantOf Governance.showsActivity call = [call])
      (hlast : g.lastAuthorityAction = call.ctx.now) (hnone : g.recovery = none)
  | succeeded (hact : l.grantOf Governance.showsActivity call = [])
      (hnamed : l.governance.recovery ≠ none) (hnone : g.recovery = none)
  | unseen (hact : l.grantOf Governance.showsActivity call = [])
      (hlast : g.lastAuthorityAction = l.governance.lastAuthorityAction)
      (hsame : g.recovery = l.governance.recovery)
  | designated {address : Address} (hdesignated : Designated l call address)
      (hlast : g.lastAuthorityAction = l.governance.lastAuthorityAction)
      (hnamed : g.recovery = some ⟨address, call.ctx.now⟩)

theorem watched_of_moved {g : Governance} (hgrant : l.grant call = [call])
    (hmoved : l.governance.Moved call.ctx call.request g) : Watched l call g := by
  have hacted (hkind : l.governance.showsActivity call.request = true) :
      l.grantOf Governance.showsActivity call = [call] := (grantOf_of_kind hkind).trans hgrant
  obtain ⟨ctx, request⟩ := call
  cases hmoved with
  | kept hfree hnone =>
    refine .unseen (grantOf_of_not_kind ?_) rfl rfl
    cases request with
    | acceptAuthority => cases hnone
    | _ => exact hfree
  | acted _ hreserved hnone =>
    refine .acted (hacted ?_) rfl rfl
    cases request with
    | acceptAuthority => rfl
    | _ => exact hreserved
  | struck => exact .acted (hacted rfl) rfl rfl
  | changed hchanged =>
    cases hchanged with
    | guarded | offered | accepted => exact .acted (hacted rfl) rfl rfl
    | recovered hnamed =>
      refine .succeeded (grantOf_of_not_kind rfl) ?_ rfl
      rw [hnamed]
      nofun
    | resetRequested | strikesReset => exact .unseen (grantOf_of_not_kind rfl) rfl rfl
    | designated hguardian _ hsilent => exact .designated ⟨rfl, hgrant, hguardian, hsilent⟩ rfl rfl

/-- Every call does one of these, since a call that is refused is unseen. -/
theorem watched (l : Ledger τ) (call : Call) : Watched l call (l.step call).governance := by
  rcases roles l call with ⟨hrefused, hsame⟩ | ⟨hgrant, hmoved⟩
  · rw [hsame.governance]
    exact .unseen (grantOf_of_refused hrefused) rfl rfl
  · exact watched_of_moved hgrant hmoved.governance

/-- The window from anything that the authority has done is over, if that from its last action is,
at any time from the last call on; and it is over from the last call on as long as a successor is
named. -/
structure Outlasted (l : Ledger τ) (window : Span) (events : List (Event τ)) : Prop where
  silent : ∀ act ∈ l.acts events, ∀ t, (∀ call ∈ events.filterMap Event.call?, call.ctx.now ≤ t) →
    (l.after events).governance.lastAuthorityAction.after window ≤ t → act.ctx.now.after window ≤ t
  named : (l.after events).governance.recovery ≠ none →
    ∀ act ∈ l.acts events, ∀ t, (∀ call ∈ events.filterMap Event.call?, call.ctx.now ≤ t) →
      act.ctx.now.after window ≤ t

namespace Outlasted

variable {window : Span}

theorem token (h : Outlasted l window events) (change : τ → τ) :
    Outlasted l window (events ++ [.token change]) := by
  have hcalls : (events ++ [Event.token change]).filterMap Event.call? =
      events.filterMap Event.call? := by simp [Event.call?]
  constructor
  · intro act hact t
    rw [acts_append_token] at hact
    rw [after_append_token, hcalls]
    exact h.silent act hact t
  · intro hnamed act hact t
    rw [acts_append_token] at hact
    rw [after_append_token] at hnamed
    rw [hcalls]
    exact h.named hnamed act hact t

/-- An action outside of leap seconds begins a window that ends no earlier than all before. A call
that is no action adds none; and when a successor is named, all windows are over already. -/
theorem request (h : Outlasted l window events)
    (hwindow : (l.after events).governance.policy.livenessWindow = window)
    (hordered : InOrder (events ++ [.request call]))
    (hplain : (l.after events).grantOf Governance.showsActivity call = [call] →
      call.ctx.now.inLeapSecond = false) :
    Outlasted l window (events ++ [.request call]) := by
  have hcalls_of {t : Timestamp} (hcalls : ∀ earlier ∈
      (events ++ [Event.request call]).filterMap Event.call?, earlier.ctx.now ≤ t) :
      (∀ earlier ∈ events.filterMap Event.call?, earlier.ctx.now ≤ t) ∧ call.ctx.now ≤ t := by
    rw [List.filterMap_append, List.forall_mem_append] at hcalls
    exact ⟨hcalls.1, hcalls.2 call (List.mem_singleton_self _)⟩
  have hquiet (hact : (l.after events).grantOf Governance.showsActivity call = []) :
      l.acts (events ++ [.request call]) = l.acts events := by
    rw [acts_append_request, hact, List.append_nil]
  cases watched (l.after events) call with
  | acted hact hlast hnone =>
    refine ⟨fun act hact' t hcalls hover => ?_, fun hnamed => ?_⟩
    · rw [after_append_request, hlast] at hover
      rw [acts_append_request, hact, List.mem_append] at hact'
      rcases hact' with hbefore | hcall
      · have hearlier := hordered.le_of_append_request
          (mem_calls_of_mem_gather (grantOf_subset _) hbefore)
        exact Timestamp.le_trans (Timestamp.after_le_after_of_le (hplain hact) hearlier) hover
      · rw [List.mem_singleton.1 hcall]
        exact hover
    · rw [after_append_request] at hnamed
      exact absurd hnone hnamed
  | succeeded hact hnamed hnone =>
    refine ⟨fun act hact' t hcalls _ => ?_, fun hstill => ?_⟩
    · rw [hquiet hact] at hact'
      exact h.named hnamed act hact' t (hcalls_of hcalls).1
    · rw [after_append_request] at hstill
      exact absurd hnone hstill
  | unseen hact hlast hsame =>
    refine ⟨fun act hact' t hcalls hover => ?_, fun hnamed act hact' t hcalls => ?_⟩
    · rw [hquiet hact] at hact'
      rw [after_append_request, hlast] at hover
      exact h.silent act hact' t (hcalls_of hcalls).1 hover
    · rw [hquiet hact] at hact'
      rw [after_append_request, hsame] at hnamed
      exact h.named hnamed act hact' t (hcalls_of hcalls).1
  | designated hdesignated hlast _ =>
    have hact := hdesignated.grantOf_eq_nil
    refine ⟨fun act hact' t hcalls hover => ?_, fun _ act hact' t hcalls => ?_⟩
    · rw [hquiet hact] at hact'
      rw [after_append_request, hlast] at hover
      exact h.silent act hact' t (hcalls_of hcalls).1 hover
    · rw [hquiet hact] at hact'
      have hover := h.silent act hact' call.ctx.now
        (fun _ hearlier => hordered.le_of_append_request hearlier) (hwindow ▸ hdesignated.silent)
      exact Timestamp.le_trans hover (hcalls_of hcalls).2

end Outlasted

/-- A pending successor was named in the last designation, and the authority has not acted since. -/
theorem designated_of_recovery (hnone : l.governance.recovery = none) {named : RecoveryDesignation}
    (h : (l.after events).governance.recovery = some named) :
    ∃ first designation second, events = first ++ .request designation :: second ∧
      Designated (l.after first) designation named.address ∧
      named.designatedAt = designation.ctx.now ∧
      ((l.after first).step designation).acts second = [] := by
  -- A call voids the naming, or leaves it and is not counted as an act, or is the naming.
  have hstep (l : Ledger τ) (call : Call) (named : RecoveryDesignation)
      (h : (l.step call).governance.recovery = some named) :
      (Designated l call named.address ∧ named.designatedAt = call.ctx.now) ∨
        (l.grantOf Governance.showsActivity call = [] ∧ l.governance.recovery = some named) := by
    cases watched l call with
    | acted _ _ hvoid | succeeded _ _ hvoid =>
      rw [hvoid] at h
      cases h
    | unseen hact _ hsame => exact .inr ⟨hact, hsame.symm.trans h⟩
    | designated hdesignated _ hnamed =>
      rw [hnamed] at h
      cases h
      exact .inl ⟨hdesignated, rfl⟩
  obtain ⟨first, designation, second, hsplit, ⟨hdesignated, htime⟩, hquiet⟩ :=
    exists_last_of_after (v := fun l => l.governance.recovery) hstep (fun _ _ => rfl) hnone h
  exact ⟨first, designation, second, hsplit, hdesignated, htime, hquiet⟩

variable {policy : ProtocolPolicy} {authority : Address} {guardian : Option Address} {token : τ}
  {now : Timestamp}

/-- The authority appoints another guardian, just after the first one has named a successor. -/
def lateAppointment : Call :=
  ⟨⟨⟨1⟩, Timestamp.epoch.after (.ofSeconds 2592001), 1⟩, .setGuardian ⟨3⟩⟩

/-- A successor is named by the first guardian, and another one by the second. -/
def successionRun : List (Event PoolToken) :=
  [.request ⟨⟨⟨2⟩, Timestamp.epoch.after (.ofSeconds 2592000), 1⟩, .designateRecovery ⟨4⟩⟩,
   .request lateAppointment,
   .request ⟨⟨⟨3⟩, Timestamp.epoch.after (.ofSeconds 5184001), 1⟩, .designateRecovery ⟨5⟩⟩]

/-- The second successor takes over as soon as that is granted. -/
def takeover : Call := ⟨⟨⟨5⟩, Timestamp.epoch.after (.ofSeconds 7776001), 1⟩, .claimRecovery⟩

end Ledger

end Settlement
