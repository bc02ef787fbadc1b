import Settlement.Number.Word

namespace Settlement

attribute [local instance (high)] instPowNat

/-- A length of time of less than `2 ^ 64` seconds, in nanoseconds. -/
structure Span where
  nanos : Nat
  nanos_lt : nanos < 2 ^ (64 : Nat) * 1_000_000_000
deriving DecidableEq

namespace Span

def zero : Span := ⟨0, by decide⟩

instance : Inhabited Span := ⟨zero⟩

def ofSeconds (seconds : Count) : Span :=
  ⟨seconds.val * 1_000_000_000, by have := seconds.isLt; omega⟩

def ofMillis (millis : Count) : Span :=
  ⟨millis.val * 1_000_000, by have := millis.isLt; omega⟩

/-- The length of these seconds and nanoseconds together, if it is within bounds. -/
def ofParts? (seconds nanos : Nat) : Option Span :=
  if h : seconds * 1_000_000_000 + nanos < 2 ^ (64 : Nat) * 1_000_000_000 then some ⟨_, h⟩ else none

/-- The whole seconds. -/
def seconds (d : Span) : Nat := d.nanos / 1_000_000_000

/-- The nanoseconds beyond the whole seconds, always less than one more of them. -/
def subsecond (d : Span) : Nat := d.nanos % 1_000_000_000

instance : LE Span := ⟨fun a b => a.nanos ≤ b.nanos⟩

instance : LT Span := ⟨fun a b => a.nanos < b.nanos⟩

instance (a b : Span) : Decidable (a ≤ b) := inferInstanceAs (Decidable (a.nanos ≤ b.nanos))

instance (a b : Span) : Decidable (a < b) := inferInstanceAs (Decidable (a.nanos < b.nanos))

theorem le_def {a b : Span} : a ≤ b ↔ a.nanos ≤ b.nanos := Iff.rfl

theorem lt_def {a b : Span} : a < b ↔ a.nanos < b.nanos := Iff.rfl

def isZero (d : Span) : Bool := d.nanos = 0

end Span

/-- A point in time by the clock: a second and the nanoseconds that have passed since its start. The
seconds are counted from the start of 1970, within the years -262143 to 262142, and the count leaves
leap seconds out. A point in a leap second is told by the second before it, which is the last of its
minute, and by a thousand million nanoseconds or more. -/
structure Timestamp where
  seconds : Int
  nanos : Nat
  earliest_le : -8334601228800 ≤ seconds
  lt_end : seconds < 8210266876800
  nanos_lt : nanos < 2 * 1_000_000_000
  leap_ends_minute : 1_000_000_000 ≤ nanos → seconds % 60 = 59
deriving DecidableEq

namespace Timestamp

/-- The point in time with these seconds and nanoseconds, if there is one. -/
def ofParts? (seconds : Int) (nanos : Nat) : Option Timestamp :=
  if h : (-8334601228800 ≤ seconds ∧ seconds < 8210266876800) ∧ nanos < 2 * 1_000_000_000 ∧
      (1_000_000_000 ≤ nanos → seconds % 60 = 59) then
    some ⟨seconds, nanos, h.1.1, h.1.2, h.2.1, h.2.2⟩
  else none

def epoch : Timestamp := ⟨0, 0, by decide, by decide, by decide, by decide⟩

/-- The last point in time outside of leap seconds, at which additions stop. Only the leap second
that ends its minute is later. -/
def latest : Timestamp :=
  ⟨8210266876799, 1_000_000_000 - 1, by decide, by decide, by decide, by decide⟩

instance : Inhabited Timestamp := ⟨epoch⟩

/-- Whether the clock shows a leap second, which follows the second that the time is told by. -/
def inLeapSecond (t : Timestamp) : Bool := 1_000_000_000 ≤ t.nanos

/-- The same point of the leap second that follows the second of `t`, which has to be the last of
its minute. -/
def leap? (t : Timestamp) : Option Timestamp := ofParts? t.seconds (t.nanos + 1_000_000_000)

/-- The nanoseconds into the second that the clock shows, be it a leap second or not. -/
def subsecond (t : Timestamp) : Nat := t.nanos % 1_000_000_000

/-- The second of the day. A leap second has the one of the second before it. -/
def secondOfDay (t : Timestamp) : Int := t.seconds % 86400

/-- The place of a point in time among all of them. Every second has room for a leap second after
it, so that times are ordered by their seconds and then by their nanoseconds. -/
def rank (t : Timestamp) : Int := t.seconds * (2 * 1_000_000_000) + t.nanos

instance : LE Timestamp := ⟨fun a b => a.rank ≤ b.rank⟩

instance : LT Timestamp := ⟨fun a b => a.rank < b.rank⟩

instance (a b : Timestamp) : Decidable (a ≤ b) := inferInstanceAs (Decidable (a.rank ≤ b.rank))

instance (a b : Timestamp) : Decidable (a < b) := inferInstanceAs (Decidable (a.rank < b.rank))

theorem le_def {a b : Timestamp} : a ≤ b ↔ a.rank ≤ b.rank := Iff.rfl

theorem lt_def {a b : Timestamp} : a < b ↔ a.rank < b.rank := Iff.rfl

/-- The nanoseconds since the start of 1970. Those of a leap second are counted a second time, in
the second after it. -/
def count (t : Timestamp) : Int := t.seconds * 1_000_000_000 + t.nanos

/-- The point in time outside of leap seconds at this count, if there is one. -/
def ofCount? (count : Int) : Option Timestamp :=
  ofParts? (count / 1_000_000_000) (count % 1_000_000_000).toNat

/-- The time `d` after `t`, if it is not beyond the last point in time. A time in a leap second
stays in it as long as the leap second lasts; a time that leaves it goes on as if from the second
before, so that the leap second itself takes no time. -/
def add? (t : Timestamp) (d : Span) : Option Timestamp :=
  if t.inLeapSecond ∧ t.nanos + d.nanos < 2 * 1_000_000_000 then ofParts? t.seconds (t.nanos + d.nanos)
  else ofCount? (t.seconds * 1_000_000_000 + t.subsecond + d.nanos)

/-- The time `d` after `t`, or the last point in time when that is beyond it. -/
def after (t : Timestamp) (d : Span) : Timestamp := (t.add? d).getD latest

/-- The count of a time for comparing it with another one. A time in a leap second is set back by a
second if the other time is later in the day, whatever the days of the two are. -/
def countBeside (t other : Timestamp) : Int :=
  if t.inLeapSecond = true ∧ t.secondOfDay < other.secondOfDay then t.count - 1_000_000_000 else t.count

/-- The time from `start` to `t` in nanoseconds as a clock tells it, negative if `start` is the
later. -/
def lapse (start t : Timestamp) : Int := t.countBeside start - start.countBeside t

theorem lapse_le (start t : Timestamp) : start.lapse t ≤ t.count - start.count + 1_000_000_000 := by
  unfold lapse countBeside
  split <;> split <;> omega

/-- The time from `start` to `t`, zero if `start` is the later of the two. -/
def since (t start : Timestamp) : Span :=
  ⟨(start.lapse t).toNat, by
    have := lapse_le start t
    have := t.lt_end
    have := t.nanos_lt
    have := start.earliest_le
    unfold count at *
    omega⟩

@[simp] theorem nanos_since (t start : Timestamp) :
    (t.since start).nanos = (start.lapse t).toNat := rfl

end Timestamp

end Settlement
