import KeyEngine.Modifier

/-!
# Counted modifiers

Several keys may hold the same modifier at once, so every source of modifiers is counted per modifier
and a modifier is on while its count is positive. The state of a keyboard has three such counts (held
keys, one-shots, modifiers attached to a stroke) and a set that is masked for a moment. The host is
shown what is held or one-shot and not masked, together with what is attached.
-/

namespace KeyEngine

/-- A count for each modifier, at most 255. -/
structure Tally where
  /-- The count at each bit position. -/
  counts : Vector Nat 8
deriving DecidableEq

namespace Tally

/-- The largest count; counting further leaves it unchanged. -/
def limit : Nat := 255

/-- No modifier is counted. -/
def empty : Tally := ⟨Vector.replicate 8 0⟩

/-- How often `m` is counted. -/
def count (t : Tally) (m : Modifier) : Nat := t.counts[m.index]

/-- The tally with given counts. -/
def ofCounts (f : Modifier → Nat) : Tally :=
  ⟨#v[f .leftControl, f .leftShift, f .leftAlt, f .leftGui,
      f .rightControl, f .rightShift, f .rightAlt, f .rightGui]⟩

/-- Counts every member of `s` once more. -/
def add (t : Tally) (s : ModifierSet) : Tally :=
  ofCounts fun m => if s.contains m then min limit (t.count m + 1) else t.count m

/-- Counts every member of `s` once less. -/
def remove (t : Tally) (s : ModifierSet) : Tally :=
  ofCounts fun m => if s.contains m then t.count m - 1 else t.count m

/-- The modifiers with a positive count. -/
def present (t : Tally) : ModifierSet :=
  (Modifier.all.filter fun m => 0 < t.count m).foldl (fun s m => s ∪ .single m) ∅

/-- The empty tally counts every modifier at zero. -/
@[simp] theorem count_empty (m : Modifier) : empty.count m = 0 := by cases m <;> rfl

/-- A tally made from counts has just those counts. -/
@[simp] theorem count_ofCounts (f : Modifier → Nat) (m : Modifier) : (ofCounts f).count m = f m := by
  cases m <;> rfl

/-- Adding a set counts its members up by one, as far as the limit, and leaves the other counts. -/
@[simp] theorem count_add (t : Tally) (s : ModifierSet) (m : Modifier) :
    (t.add s).count m = if s.contains m then min limit (t.count m + 1) else t.count m := by
  simp [add]

/-- Removing a set counts its members down by one, not below zero, and leaves the other counts. -/
@[simp] theorem count_remove (t : Tally) (s : ModifierSet) (m : Modifier) :
    (t.remove s).count m = if s.contains m then t.count m - 1 else t.count m := by
  simp [remove]

/-- Tallies with the same counts are equal. -/
theorem ext_count {t u : Tally} (h : ∀ m, t.count m = u.count m) : t = u := by
  obtain ⟨a⟩ := t
  obtain ⟨b⟩ := u
  congr 1
  apply Vector.ext
  intro i hi
  obtain ⟨m, hm⟩ := Modifier.exists_index ⟨i, hi⟩
  have := h m
  simpa [count, hm] using this

/-- Modifiers joined to a set one by one are its members together with what it had. -/
theorem contains_foldl_union (ms : List Modifier) (s : ModifierSet) (m : Modifier) :
    (ms.foldl (fun s m => s ∪ .single m) s).contains m = (s.contains m || decide (m ∈ ms)) := by
  induction ms generalizing s with
  | nil => simp
  | cons n rest ih => simp [ih, Bool.or_assoc, eq_comm]

/-- A modifier is present exactly when its count is positive. -/
@[simp] theorem contains_present (t : Tally) (m : Modifier) :
    t.present.contains m = decide (0 < t.count m) := by
  simp [present, contains_foldl_union, Modifier.mem_all]

end Tally

/-- The modifiers of a keyboard, by where they come from. -/
structure ModifierState where
  /-- Held keys, held tap-hold keys and active layers. -/
  held : Tally
  /-- One-shot modifiers that wait for a key. -/
  oneShot : Tally
  /-- Attached to a stroke that is down. -/
  attached : Tally
  /-- Masked while a shifted stroke of a manual-shift key goes out. -/
  suppressed : ModifierSet
deriving DecidableEq

namespace ModifierState

/-- No modifier from any source. -/
def empty : ModifierState := ⟨.empty, .empty, .empty, ∅⟩

/-- Counts a held set. -/
def hold (s : ModifierState) (set : ModifierSet) : ModifierState :=
  { s with held := s.held.add set }

/-- Takes back one count of a held set. -/
def unhold (s : ModifierState) (set : ModifierSet) : ModifierState :=
  { s with held := s.held.remove set }

/-- Counts a one-shot set. -/
def addOneShot (s : ModifierState) (set : ModifierSet) : ModifierState :=
  { s with oneShot := s.oneShot.add set }

/-- Takes back one count of a one-shot set. -/
def removeOneShot (s : ModifierState) (set : ModifierSet) : ModifierState :=
  { s with oneShot := s.oneShot.remove set }

/-- Counts the set attached to a stroke. -/
def attach (s : ModifierState) (set : ModifierSet) : ModifierState :=
  { s with attached := s.attached.add set }

/-- Takes back one count of the set attached to a stroke. -/
def detach (s : ModifierState) (set : ModifierSet) : ModifierState :=
  { s with attached := s.attached.remove set }

/-- Masks a set. -/
def suppress (s : ModifierState) (set : ModifierSet) : ModifierState :=
  { s with suppressed := s.suppressed ∪ set }

/-- Ends the masking of a set. -/
def unsuppress (s : ModifierState) (set : ModifierSet) : ModifierState :=
  { s with suppressed := s.suppressed \ set }

/-- What the host is shown. -/
def effective (s : ModifierState) : ModifierSet :=
  ((s.held.present ∪ s.oneShot.present) \ s.suppressed) ∪ s.attached.present

/-- In force is what is held or one-shot and not suppressed, and whatever is attached to a stroke. -/
@[simp] theorem contains_effective (s : ModifierState) (m : Modifier) :
    s.effective.contains m =
      (((decide (0 < s.held.count m) || decide (0 < s.oneShot.count m)) && !s.suppressed.contains m) ||
        decide (0 < s.attached.count m)) := by
  simp [effective]

end ModifierState

end KeyEngine
