/-!
# Milliseconds

Times on a monotonic clock and lengths of time are whole milliseconds that fit in 64 bits. Arithmetic
stops at both ends of the range: nothing has passed since a moment that is still to come, and a deadline
past the last moment is the last moment.
-/

namespace KeyEngine

/-- A number of milliseconds: a moment on the clock, or a length of time. -/
@[ext] structure Millis where
  /-- The number. -/
  count : Nat
  /-- It fits in 64 bits. -/
  fits : count < UInt64.size := by decide
deriving DecidableEq

namespace Millis

/-- The moment at which the clock starts. -/
def zero : Millis := ⟨0, by decide⟩

/-- The last moment. -/
def last : Millis := ⟨UInt64.size - 1, by decide⟩

instance : Inhabited Millis := ⟨zero⟩
instance : LE Millis := ⟨fun a b => a.count ≤ b.count⟩
instance : LT Millis := ⟨fun a b => a.count < b.count⟩
instance (a b : Millis) : Decidable (a ≤ b) := inferInstanceAs (Decidable (a.count ≤ b.count))
instance (a b : Millis) : Decidable (a < b) := inferInstanceAs (Decidable (a.count < b.count))

/-- The number in a word as milliseconds. -/
def ofWord (n : UInt64) : Millis := ⟨n.toNat, n.toNat_lt⟩

/-- The number as milliseconds, if it fits. -/
def ofNat? (n : Nat) : Option Millis := if h : n < UInt64.size then some ⟨n, h⟩ else none

/-- What has passed at `now` since `earlier`; nothing if `earlier` is yet to come. -/
def since (now earlier : Millis) : Millis :=
  ⟨now.count - earlier.count, Nat.lt_of_le_of_lt (Nat.sub_le _ _) now.fits⟩

/-- The moment that follows `start` by `length`, at most the last moment. -/
def after (start length : Millis) : Millis :=
  ⟨min (start.count + length.count) (UInt64.size - 1), Nat.lt_of_le_of_lt (Nat.min_le_right _ _) (by decide)⟩

/-- Whether a deadline has come. -/
def isDue (deadline now : Millis) : Bool := decide (deadline ≤ now)

/-- The clock moved to `target`; it never runs backwards. -/
def advance (now target : Millis) : Millis := if now < target then target else now

/-- The number followed by `ms`. -/
def text (t : Millis) : String := toString t.count ++ "ms"

/-- Times are ordered as their counts of milliseconds. -/
theorem le_def {a b : Millis} : a ≤ b ↔ a.count ≤ b.count := Iff.rfl

/-- One time is before another when its count of milliseconds is smaller. -/
theorem lt_def {a b : Millis} : a < b ↔ a.count < b.count := Iff.rfl

/-- A span of time is the difference of the two counts, and nothing for a time that is yet to come. -/
@[simp] theorem count_since (now earlier : Millis) :
    (now.since earlier).count = now.count - earlier.count := rfl

/-- A deadline is start and length added up, saturating at the largest count there is. -/
@[simp] theorem count_after (start length : Millis) :
    (start.after length).count = min (start.count + length.count) (UInt64.size - 1) := rfl

/-- A deadline is due from its own instant on. -/
theorem isDue_iff {deadline now : Millis} : deadline.isDue now = true ↔ deadline ≤ now := by
  simp [isDue]

/-- A deadline is never earlier than its start. -/
theorem le_after (start length : Millis) : start ≤ start.after length := by
  have := start.fits
  simp only [le_def, count_after]
  omega

/-- Before the last moment, a deadline has come exactly when its whole length has passed. -/
theorem isDue_after_iff {start length now : Millis} (h : start.count + length.count < UInt64.size) :
    (start.after length).isDue now = true ↔ start ≤ now ∧ length ≤ now.since start := by
  simp only [isDue_iff, le_def, count_after, count_since]
  omega

end Millis

end KeyEngine
