import Mathlib.Algebra.Group.Nat.Defs
import Settlement.Proofs.Lapse
import Settlement.Proofs.Result

namespace Settlement

/-- A condition on the time and the block of a request. Delays and windows end at a time; the age of
something is told by a clock, as the time elapsed since it started, which is not the same where a
leap second lies between. -/
inductive Gate
  /-- Open from this time on. -/
  | since (opens : Timestamp)
  /-- Open before this time. -/
  | before (closes : Timestamp)
  /-- Open up to this time. -/
  | upTo (closes : Timestamp)
  /-- Open when so much time has elapsed. -/
  | lasted (start : Timestamp) (least : Span)
  /-- Open when no more time than this has elapsed. -/
  | within (start : Timestamp) (most : Span)
  /-- Open in later blocks than this. -/
  | beyond (block : Count)
  /-- Open or closed whatever the time. -/
  | given (holds : Bool)
deriving DecidableEq

/-- A check of a request: a gate, or something that the state and the request decide alone. -/
inductive Check
  /-- What fails it is said to pass by waiting. -/
  | timed (gate : Gate)
  /-- The state decides, whatever the time. -/
  | settled (holds : Bool)

/-- What checks come to, as far as waiting is concerned: whether they are passed, and whether a
refusal is said to pass by waiting. -/
inductive Verdict
  | passed
  /-- Refused for a cause that is said to pass by waiting. -/
  | untimely
  | refused
deriving DecidableEq

namespace Gate

/-- Whether the gate is open at this time and in this block. The order of times and the elapsed time
are those that the checks themselves go by. -/
def Open (now : Timestamp) (block : Count) : Gate → Prop
  | since opens => opens ≤ now
  | before closes => now < closes
  | upTo closes => now ≤ closes
  | lasted start least => least ≤ now.since start
  | within start most => now.since start ≤ most
  | beyond earlier => earlier < block
  | given holds => holds = true

instance (now : Timestamp) (block : Count) : (gate : Gate) → Decidable (gate.Open now block)
  | since opens => inferInstanceAs (Decidable (opens ≤ now))
  | before closes => inferInstanceAs (Decidable (now < closes))
  | upTo closes => inferInstanceAs (Decidable (now ≤ closes))
  | lasted start least => inferInstanceAs (Decidable (least ≤ now.since start))
  | within start most => inferInstanceAs (Decidable (now.since start ≤ most))
  | beyond earlier => inferInstanceAs (Decidable (earlier < block))
  | given holds => inferInstanceAs (Decidable (holds = true))

/-- The gate is open at some time from now on. A gate that opens at a time always is; one that asks
for an age is if the clock ever shows it, and one that limits an age is open yet, or will be again
where the clock falls back. -/
def Ahead (now : Timestamp) : Gate → Prop
  | since _ => True
  | before closes => now < closes
  | upTo closes => now ≤ closes
  | lasted start least => least ≤ Timestamp.final.since start
  | within start most => ∃ t ∈ now.dips, t.since start ≤ most
  | beyond block => block.val + 1 < 2 ^ 64
  | given holds => holds = true

instance (now : Timestamp) : (gate : Gate) → Decidable (gate.Ahead now)
  | since _ => isTrue trivial
  | before closes => inferInstanceAs (Decidable (now < closes))
  | upTo closes => inferInstanceAs (Decidable (now ≤ closes))
  | lasted start least => inferInstanceAs (Decidable (least ≤ Timestamp.final.since start))
  | within start most => inferInstanceAs (Decidable (∃ t ∈ now.dips, t.since start ≤ most))
  | beyond block => inferInstanceAs (Decidable (block.val + 1 < 2 ^ 64))
  | given holds => inferInstanceAs (Decidable (holds = true))

/-- The first gate is open before the second one has closed. Gates of different kinds meet whenever
each is ahead, as far as this goes. -/
def Meets : Gate → Gate → Prop
  | since opens, before closes => opens < closes
  | since opens, upTo closes => opens ≤ closes
  | lasted _ least, within _ most => least ≤ most
  | _, _ => True

instance : (gate other : Gate) → Decidable (gate.Meets other)
  | since opens, before closes => inferInstanceAs (Decidable (opens < closes))
  | since opens, upTo closes => inferInstanceAs (Decidable (opens ≤ closes))
  | lasted _ least, within _ most => inferInstanceAs (Decidable (least ≤ most))
  | since _, since _ | since _, lasted _ _ | since _, within _ _ => isTrue trivial
  | since _, beyond _ | since _, given _ => isTrue trivial
  | lasted _ _, since _ | lasted _ _, before _ | lasted _ _, upTo _ => isTrue trivial
  | lasted _ _, lasted _ _ | lasted _ _, beyond _ | lasted _ _, given _ => isTrue trivial
  | before _, _ | upTo _, _ | within _ _, _ | beyond _, _ | given _, _ => isTrue trivial

/-- The gate goes by the age of what started then or, without a start, by the time itself. Gates to
other blocks, and those that are given, go with either. -/
def GoesBy (start? : Option Timestamp) : Gate → Prop
  | since _ | before _ | upTo _ => start? = none
  | lasted start _ | within start _ => start? = some start
  | beyond _ | given _ => True

end Gate

/-- Every one of the gates is still to open or to close, and none closes before another one opens.
This can be computed from the gates and the time alone. -/
def Surmountable (now : Timestamp) (gates : List Gate) : Prop :=
  (∀ gate ∈ gates, gate.Ahead now) ∧ ∀ gate ∈ gates, ∀ other ∈ gates, gate.Meets other

instance (now : Timestamp) (gates : List Gate) : Decidable (Surmountable now gates) :=
  inferInstanceAs (Decidable (_ ∧ _))

/-- The time at which the last of the gates opens, now if none is to open. -/
def openFrom (now : Timestamp) : List Gate → Timestamp
  | [] => now
  | .since opens :: rest =>
    if opens ≤ openFrom now rest then openFrom now rest else opens
  | _ :: rest => openFrom now rest

section openFrom

variable {now : Timestamp} {gates : List Gate}

theorem le_openFrom : now ≤ openFrom now gates := by
  induction gates with
  | nil => exact Timestamp.le_refl _
  | cons gate rest ih =>
    cases gate with
    | since opens =>
      unfold openFrom
      split
      · exact ih
      · next h => exact Timestamp.le_trans ih (Timestamp.le_of_lt (Timestamp.not_le.1 h))
    | _ => exact ih

theorem since_le_openFrom {opens : Timestamp} (h : .since opens ∈ gates) :
    opens ≤ openFrom now gates := by
  induction gates with
  | nil => cases h
  | cons gate rest ih =>
    cases gate with
    | since first =>
      unfold openFrom
      split
      · next hfirst =>
        rcases List.mem_cons.1 h with heq | hrest
        · cases heq
          exact hfirst
        · exact ih hrest
      · next hfirst =>
        rcases List.mem_cons.1 h with heq | hrest
        · cases heq
          exact Timestamp.le_refl _
        · exact Timestamp.le_trans (ih hrest) (Timestamp.le_of_lt (Timestamp.not_le.1 hfirst))
    | _ => exact ih ((List.mem_cons.1 h).resolve_left (by simp))

theorem openFrom_cases (now : Timestamp) (gates : List Gate) :
    openFrom now gates = now ∨ .since (openFrom now gates) ∈ gates := by
  induction gates with
  | nil => exact .inl rfl
  | cons gate rest ih =>
    cases gate with
    | since first =>
      unfold openFrom
      split
      · exact ih.imp_right (List.mem_cons_of_mem _)
      · exact .inr List.mem_cons_self
    | _ => exact ih.imp_right (List.mem_cons_of_mem _)

/-- The age that the most demanding of the gates asks for. -/
def demandedAge : List Gate → Nat
  | [] => 0
  | .lasted _ least :: rest => max least.nanos (demandedAge rest)
  | _ :: rest => demandedAge rest

theorem le_demandedAge {start : Timestamp} {least : Span} (h : .lasted start least ∈ gates) :
    least.nanos ≤ demandedAge gates := by
  induction gates with
  | nil => cases h
  | cons gate rest ih =>
    cases gate with
    | lasted first firstLeast =>
      unfold demandedAge
      rcases List.mem_cons.1 h with heq | hrest
      · cases heq
        exact Nat.le_max_left _ _
      · exact Nat.le_trans (ih hrest) (Nat.le_max_right _ _)
    | _ => exact ih ((List.mem_cons.1 h).resolve_left (by simp))

/-- A bound on what each of the gates asks for is one on what the most demanding asks for. -/
theorem demandedAge_le {bound : Nat}
    (h : ∀ start least, .lasted start least ∈ gates → least.nanos ≤ bound) :
    demandedAge gates ≤ bound := by
  induction gates with
  | nil => exact Nat.zero_le _
  | cons gate rest ih =>
    have ih := ih fun start least hmem => h start least (List.mem_cons_of_mem _ hmem)
    cases gate with
    | lasted start least => exact Nat.max_le.2 ⟨h start least List.mem_cons_self, ih⟩
    | _ => exact ih

end openFrom

namespace Gate

variable {now later : Timestamp} {block : Count} {gate other : Gate} {gates : List Gate}

theorem Open.ahead (hlater : now ≤ later) (h : gate.Open later block) : gate.Ahead now := by
  cases gate with
  | since opens => trivial
  | before closes =>
    rw [Ahead, Timestamp.lt_def]
    exact Int.lt_of_le_of_lt hlater h
  | upTo closes => exact Timestamp.le_trans hlater h
  | lasted start least =>
    have hmost := Timestamp.lapse_le_final start later
    change least.nanos ≤ (start.lapse later).toNat at h
    change least.nanos ≤ (start.lapse Timestamp.final).toNat
    omega
  | within start most =>
    obtain ⟨t, ht, hless⟩ := Timestamp.exists_mem_dips_lapse_le start hlater
    change (start.lapse later).toNat ≤ most.nanos at h
    refine ⟨t, ht, ?_⟩
    change (start.lapse t).toNat ≤ most.nanos
    omega
  | beyond earlier =>
    have hblock := block.isLt
    have hless : earlier.val < block.val := h
    change earlier.val + 1 < 2 ^ 64
    omega
  | given holds => exact h

theorem Open.meets {start? : Option Timestamp} (hclock : gate.GoesBy start?)
    (hclock' : other.GoesBy start?) (h : gate.Open later block) (hother : other.Open later block) :
    gate.Meets other := by
  cases gate with
  | since opens =>
    cases other with
    | before closes =>
      rw [Meets, Timestamp.lt_def]
      exact Int.lt_of_le_of_lt h hother
    | upTo closes => exact Timestamp.le_trans h hother
    | _ => trivial
  | lasted start least =>
    cases other with
    | within start' most =>
      change start? = some start at hclock
      change start? = some start' at hclock'
      rw [hclock, Option.some.injEq] at hclock'
      subst hclock'
      exact Nat.le_trans h hother
    | _ => trivial
  | _ => trivial

theorem Ahead.open_last (hahead : (beyond block).Ahead now) :
    (beyond block).Open later ⟨2 ^ 64 - 1, by decide⟩ := by
  change block.val + 1 < 2 ^ 64 at hahead
  change block.val < 2 ^ 64 - 1
  omega

/-- Gates that go by the time itself are open together when the last of them to open does so. -/
theorem exists_open_of_time (hclock : ∀ gate ∈ gates, gate.GoesBy none)
    (h : Surmountable now gates) : ∃ later, now ≤ later ∧
      ∀ gate ∈ gates, gate.Open later ⟨2 ^ 64 - 1, by decide⟩ := by
  obtain ⟨hahead, hmeets⟩ := h
  refine ⟨openFrom now gates, le_openFrom, fun gate hgate => ?_⟩
  have hclock := hclock gate hgate
  have hahead := hahead gate hgate
  cases gate with
  | since opens => exact since_le_openFrom hgate
  | before closes =>
    rcases openFrom_cases now gates with hnow | hlast
    · rw [hnow]
      exact hahead
    · exact hmeets _ hlast _ hgate
  | upTo closes =>
    rcases openFrom_cases now gates with hnow | hlast
    · rw [hnow]
      exact hahead
    · exact hmeets _ hlast _ hgate
  | lasted start least => cases hclock
  | within start most => cases hclock
  | beyond earlier => exact hahead.open_last
  | given holds => exact hahead

/-- Gates that go by one age are open together at the age that the most demanding of them asks for,
or at the least age that the clock shows from now on if that is more. -/
theorem exists_open_of_age {start : Timestamp} (hclock : ∀ gate ∈ gates, gate.GoesBy (some start))
    (h : Surmountable now gates) : ∃ later, now ≤ later ∧
      ∀ gate ∈ gates, gate.Open later ⟨2 ^ 64 - 1, by decide⟩ := by
  obtain ⟨hahead, hmeets⟩ := h
  have hstart {other : Timestamp} (h : some start = some other) : other = start :=
    (Option.some.inj h).symm
  have hreached : demandedAge gates ≤ (Timestamp.final.since start).nanos :=
    demandedAge_le fun start' least hgate => by
      obtain rfl := hstart (hclock _ hgate)
      exact hahead _ hgate
  obtain ⟨low, hlow, hleast⟩ := Timestamp.exists_least_since start now
  obtain ⟨later, hlater, hold, hyoung⟩ : ∃ later, now ≤ later ∧
      demandedAge gates ≤ (later.since start).nanos ∧
      ((later.since start).nanos = demandedAge gates ∨ later = low) := by
    rcases Nat.le_total (demandedAge gates) (low.since start).nanos with hold | hyoung
    · exact ⟨low, hlow, hold, .inr rfl⟩
    · obtain ⟨later, hlater, hage⟩ :=
        Timestamp.exists_since_eq (Timestamp.le_final low) hyoung hreached
      exact ⟨later, Timestamp.le_trans hlow hlater, Nat.le_of_eq hage.symm, .inl hage⟩
  refine ⟨later, hlater, fun gate hgate => ?_⟩
  have hclock := hclock gate hgate
  have hahead := hahead gate hgate
  cases gate with
  | since opens => cases hclock
  | before closes => cases hclock
  | upTo closes => cases hclock
  | lasted start' least =>
    obtain rfl := hstart hclock
    exact Nat.le_trans (le_demandedAge hgate) hold
  | within start' most =>
    obtain rfl := hstart hclock
    rcases hyoung with hage | rfl
    · have hmost : demandedAge gates ≤ most.nanos :=
        demandedAge_le fun _ _ hlasted => hmeets _ hlasted _ hgate
      exact Nat.le_trans (Nat.le_of_eq hage) hmost
    · obtain ⟨t, ht, hshort⟩ := hahead
      exact Nat.le_trans (hleast t (Timestamp.le_of_mem_dips ht)) hshort
  | beyond earlier => exact hahead.open_last
  | given holds => exact hahead

end Gate

section surmountable

variable {now : Timestamp} {gates : List Gate} {start? : Option Timestamp}

/-- Gates that go by one clock can be surmounted exactly if they are open together at some later
time. -/
theorem surmountable_iff_exists_open (block : Count)
    (hclock : ∀ gate ∈ gates, gate.GoesBy start?) :
    Surmountable now gates ↔ ∃ later height, now ≤ later ∧ block ≤ height ∧
      ∀ gate ∈ gates, gate.Open later height := by
  constructor
  · intro h
    have hlast : block ≤ ⟨2 ^ 64 - 1, by decide⟩ := by
      have := block.isLt
      rw [Word.le_def]
      change block.val ≤ 2 ^ 64 - 1
      omega
    cases start? with
    | none =>
      obtain ⟨later, hlater, hopen⟩ := Gate.exists_open_of_time hclock h
      exact ⟨later, _, hlater, hlast, hopen⟩
    | some start =>
      obtain ⟨later, hlater, hopen⟩ := Gate.exists_open_of_age hclock h
      exact ⟨later, _, hlater, hlast, hopen⟩
  · rintro ⟨later, height, hlater, -, hopen⟩
    refine ⟨fun gate hgate => (hopen gate hgate).ahead hlater, fun gate hgate other hother => ?_⟩
    exact (hopen gate hgate).meets (hclock gate hgate) (hclock other hother) (hopen other hother)

/-- It takes only time until gates are open that open at some time and never close. -/
theorem surmountable_of_since (h : ∀ gate ∈ gates, ∃ opens, gate = .since opens) :
    Surmountable now gates := by
  refine ⟨fun gate hgate => ?_, fun gate hgate other hother => ?_⟩
  · obtain ⟨opens, rfl⟩ := h gate hgate
    trivial
  · obtain ⟨opens, rfl⟩ := h gate hgate
    obtain ⟨opens', rfl⟩ := h other hother
    trivial

end surmountable

namespace Verdict

/-- The first of two verdicts that is not to go on. Checks are made in order, and the first that
fails is the answer. -/
def andThen : Verdict → Verdict → Verdict
  | passed, next => next
  | verdict, _ => verdict

theorem andThen_assoc (first second third : Verdict) :
    (first.andThen second).andThen third = first.andThen (second.andThen third) := by
  cases first with
  | _ => rfl

/-- A verdict that is reached whatever the time, written as checks. In this form it can stand in a
row with gates. -/
def checks : Verdict → List Check
  | passed => []
  | untimely => [.timed (.given false)]
  | refused => [.settled false]

end Verdict

/-- What becomes of a check at this time, in this block. A closed gate is said to open by waiting
even if it never will. -/
def Check.verdict (now : Timestamp) (block : Count) : Check → Verdict
  | timed gate => if gate.Open now block then .passed else .untimely
  | settled holds => if holds then .passed else .refused

/-- What a row of checks comes to: the verdict of the first that is not passed, since no later one
is made. -/
def judge (now : Timestamp) (block : Count) : List Check → Verdict
  | [] => .passed
  | check :: rest => (check.verdict now block).andThen (judge now block rest)

/-- The gates among the checks, up to the first check that fails for good. No request gets to the
gates after that one. -/
def gatesAhead : List Check → List Gate
  | [] => []
  | .timed gate :: rest => gate :: gatesAhead rest
  | .settled true :: rest => gatesAhead rest
  | .settled false :: _ => []

section judge

variable {now : Timestamp} {block : Count} {first rest checks : List Check}

theorem judge_append : judge now block (first ++ rest) =
    (judge now block first).andThen (judge now block rest) := by
  induction first with
  | nil => rfl
  | cons check first ih => rw [List.cons_append, judge, judge, ih, Verdict.andThen_assoc]

theorem judge_checks (verdict : Verdict) : judge now block verdict.checks = verdict := by
  cases verdict with
  | _ => rfl

/-- A request is refused for its time exactly if a gate ahead of it is closed. -/
theorem judge_eq_untimely_iff : judge now block checks = .untimely ↔
    ∃ gate ∈ gatesAhead checks, ¬ gate.Open now block := by
  induction checks with
  | nil => simp [judge, gatesAhead]
  | cons check rest ih =>
    cases check with
    | timed gate =>
      by_cases hopen : gate.Open now block
      · simp [judge, gatesAhead, Check.verdict, Verdict.andThen, hopen, ih]
      · simp [judge, gatesAhead, Check.verdict, Verdict.andThen, hopen]
    | settled holds =>
      cases holds with
      | true => simpa [judge, gatesAhead, Check.verdict, Verdict.andThen] using ih
      | false => simp [judge, gatesAhead, Check.verdict, Verdict.andThen]

theorem open_of_judge_eq_passed {gate : Gate} (h : judge now block checks = .passed)
    (hmem : .timed gate ∈ checks) : gate.Open now block := by
  induction checks with
  | nil => cases hmem
  | cons check rest ih =>
    have hfirst : check.verdict now block = .passed := by
      cases hverdict : check.verdict now block with
      | passed => rfl
      | _ => simp [judge, hverdict, Verdict.andThen] at h
    rw [judge, hfirst] at h
    rcases List.mem_cons.1 hmem with rfl | hrest
    · by_cases hopen : gate.Open now block
      · exact hopen
      · simp [Check.verdict, hopen] at hfirst
    · exact ih h hrest

theorem timed_mem_of_mem_gatesAhead {gate : Gate} (h : gate ∈ gatesAhead checks) :
    .timed gate ∈ checks := by
  induction checks with
  | nil => cases h
  | cons check rest ih =>
    cases check with
    | timed first =>
      rcases List.mem_cons.1 h with rfl | hrest
      · exact List.mem_cons_self
      · exact List.mem_cons_of_mem _ (ih hrest)
    | settled holds =>
      cases holds with
      | true => exact List.mem_cons_of_mem _ (ih h)
      | false => cases h

/-- All gates among the checks go by one clock. The checks of every operation do, which is why its
gates can be compared with each other. -/
def TimedBy (start? : Option Timestamp) (checks : List Check) : Prop :=
  ∀ gate, .timed gate ∈ checks → gate.GoesBy start?

section timedBy

variable {start? : Option Timestamp}

@[simp] theorem timedBy_nil : TimedBy start? [] := fun _ h => (List.not_mem_nil h).elim

@[simp] theorem timedBy_timed_cons {gate : Gate} :
    TimedBy start? (.timed gate :: rest) ↔ gate.GoesBy start? ∧ TimedBy start? rest := by
  simp [TimedBy, or_imp, forall_and]

@[simp] theorem timedBy_settled_cons {holds : Bool} :
    TimedBy start? (.settled holds :: rest) ↔ TimedBy start? rest := by
  simp [TimedBy]

@[simp] theorem timedBy_append :
    TimedBy start? (first ++ rest) ↔ TimedBy start? first ∧ TimedBy start? rest := by
  simp [TimedBy, or_imp, forall_and]

theorem timedBy_flatMap {α : Type} {xs : List α} {f : α → List Check}
    (h : ∀ x, TimedBy start? (f x)) : TimedBy start? (xs.flatMap f) := by
  intro gate hmem
  obtain ⟨x, -, hgate⟩ := List.mem_flatMap.1 hmem
  exact h x gate hgate

theorem timedBy_checks (verdict : Verdict) : TimedBy start? verdict.checks := by
  cases verdict with
  | _ => simp [Verdict.checks, Gate.GoesBy]

end timedBy

end judge

namespace Result

variable {α β : Type}

/-- The request is refused for a cause that is said to pass by waiting. -/
def isUntimely : Result α → Bool
  | .ok _ => false
  | .error e => e.isTemporal

/-- What an answer comes to: whether it is an error that is said to pass by waiting, another error,
or none. -/
def verdict : Result α → Verdict
  | .ok _ => .passed
  | .error e => if e.isTemporal then .untimely else .refused

/-- No refusal is said to pass by waiting: whatever is refused here is refused for good. -/
def Static (r : Result α) : Prop := ∀ e, r = .error e → e.isTemporal = false

theorem verdict_eq_untimely_iff {r : Result α} : r.verdict = .untimely ↔ r.isUntimely = true := by
  cases r with
  | ok a => simp [verdict, isUntimely]
  | error e => cases h : e.isTemporal <;> simp [verdict, isUntimely, h]

theorem verdict_map (f : α → β) (r : Result α) : verdict (r.map f) = r.verdict := by
  cases r with
  | _ => rfl

section static

variable {r : Result α} {f : α → Result β}

theorem Static.isUntimely_eq_false (h : r.Static) : r.isUntimely = false := by
  cases r with
  | ok a => rfl
  | error e => exact h e rfl

theorem static_ok (a : α) : Static (.ok a : Result α) := by
  rintro e ⟨⟩

theorem Static.bind (hr : r.Static) (hf : ∀ a, (f a).Static) : (r >>= f).Static := by
  cases r with
  | ok a => exact hf a
  | error e =>
    rintro _ ⟨⟩
    exact hr e rfl

theorem static_require {condition : Prop} [Decidable condition] {e : Error}
    (he : e.isTemporal = false) : (require condition e).Static := by
  unfold require
  split
  · exact static_ok ()
  · rintro _ ⟨⟩
    exact he

theorem static_orRefuse {e : Error} (he : e.isTemporal = false) (x : Option α) :
    (orRefuse e x).Static := by
  cases x with
  | some a => exact static_ok a
  | none =>
    rintro _ ⟨⟩
    exact he

theorem static_forM {xs : List α} {f : α → Result Unit} (hf : ∀ x, (f x).Static) :
    (xs.forM f).Static := by
  induction xs with
  | nil => exact static_ok ()
  | cons x xs ih => exact (hf x).bind fun _ => ih

end static

section verdict

variable {now : Timestamp} {block : Count} {first rest : List Check} {r : Result α}
  {f : α → Result β}

theorem verdict_bind (hr : r.verdict = judge now block first)
    (hf : ∀ a, r = .ok a → (f a).verdict = judge now block rest) :
    (r >>= f).verdict = judge now block (first ++ rest) := by
  rw [judge_append, ← hr]
  cases r with
  | ok a => exact hf a rfl
  | error e => cases h : e.isTemporal <;> simp [verdict, h, Verdict.andThen]

theorem verdict_cons {check : Check} (hr : r.verdict = judge now block [check])
    (hf : ∀ a, r = .ok a → (f a).verdict = judge now block rest) :
    (r >>= f).verdict = judge now block (check :: rest) := verdict_bind hr hf

theorem verdict_bind_of_passed (hr : r.verdict = judge now block first)
    (hf : ∀ a, r = .ok a → (f a).verdict = .passed) :
    (r >>= f).verdict = judge now block first := by
  rw [← List.append_nil first]
  exact verdict_bind hr hf

theorem verdict_of_static (h : r.Static) : r.verdict = judge now block [.settled r.isOk] := by
  cases r with
  | ok a => rfl
  | error e =>
    rw [verdict, h e rfl]
    rfl

theorem verdict_require_settled {condition : Prop} [Decidable condition] {e : Error} {holds : Bool}
    (he : e.isTemporal = false) (hholds : decide condition = holds) :
    (require condition e).verdict = judge now block [.settled holds] := by
  subst hholds
  by_cases h : condition
  · simp [require, h, verdict, judge, Check.verdict, Verdict.andThen]
  · simp [require, h, verdict, he, judge, Check.verdict, Verdict.andThen]

theorem verdict_require {condition : Prop} [Decidable condition] {e : Error} {gate : Gate}
    (he : e.isTemporal = true) (hgate : condition ↔ gate.Open now block) :
    (require condition e).verdict = judge now block [.timed gate] := by
  by_cases h : condition
  · have hopen := hgate.1 h
    simp [require, h, verdict, judge, Check.verdict, hopen, Verdict.andThen]
  · have hclosed := mt hgate.2 h
    simp [require, h, verdict, he, judge, Check.verdict, hclosed, Verdict.andThen]

theorem verdict_orRefuse {e : Error} (he : e.isTemporal = false) (x : Option α) :
    (orRefuse e x).verdict = judge now block [.settled x.isSome] := by
  cases x with
  | some a => rfl
  | none => simp [orRefuse, verdict, he, judge, Check.verdict, Verdict.andThen]

theorem verdict_forM {xs : List α} {f : α → Result Unit} {checks : α → List Check}
    (hf : ∀ x, (f x).verdict = judge now block (checks x)) :
    (xs.forM f).verdict = judge now block (xs.flatMap checks) := by
  induction xs with
  | nil => rfl
  | cons x xs ih =>
    rw [List.flatMap_cons]
    exact verdict_bind (hf x) fun _ _ => ih

end verdict

end Result

end Settlement
