import KeyEngine.HostEvent

/-!
# The register of pressed codes

Several keys may press the same code. The register counts them, so that the host sees the code go down
with the first and up with the last. Every operation returns the register together with what the host
is told. `count_set` pins down what an operation does to the counts.
-/

namespace KeyEngine

/-- How many keys press each code. -/
structure Register where
  /-- The count at each usage. -/
  counts : Vector Nat 256
deriving DecidableEq

namespace Register

/-- The largest count; pressing further leaves it unchanged. -/
def limit : Nat := 255

/-- No code is pressed. -/
def empty : Register := ⟨Vector.replicate 256 0⟩

/-- The place of a code in the register. -/
def slot (code : KeyCode) : Fin 256 := ⟨code.usage.toNat, UInt8.toNat_lt _⟩

/-- How many keys press `code`. -/
def count (r : Register) (code : KeyCode) : Nat := r.counts[slot code]

/-- The register with another count for `code`. -/
def set (r : Register) (code : KeyCode) (n : Nat) : Register :=
  ⟨r.counts.set (slot code) n⟩

/-- Whether `code` is down. -/
def isRegistered (r : Register) (code : KeyCode) : Bool := 0 < r.count code

/-- The codes that are down, in the order of their usages. -/
def registered (r : Register) : List KeyCode := KeyCode.all.filter r.isRegistered

/-- One more key presses `code`; the host sees the first press. -/
def press (r : Register) (code : KeyCode) : Register × List HostEvent :=
  (r.set code (min limit (r.count code + 1)), if r.isRegistered code then [] else [.press code])

/-- One key less presses `code`; the host sees the last release. A code that is not down is skipped. -/
def release (r : Register) (code : KeyCode) : Register × List HostEvent :=
  (r.set code (r.count code - 1), if r.count code = 1 then [.release code] else [])

/-- Presses and releases a code; one that is down already is released first, and stays down. -/
def tap (r : Register) (code : KeyCode) : Register × List HostEvent :=
  (r, if r.isRegistered code then [.release code, .press code] else [.press code, .release code])

/-- One more key presses `code`, and the host sees a fresh press in any case. -/
def retype (r : Register) (code : KeyCode) : Register × List HostEvent :=
  (r.set code (min limit (r.count code + 1)),
    if r.isRegistered code then [.release code, .press code] else [.press code])

/-- Releases every code that is down, in the order of the usages. -/
def releaseAll (r : Register) : Register × List HostEvent :=
  (empty, r.registered.map .release)

/-- Every code has a place of its own. -/
theorem slot_injective {code other : KeyCode} (h : slot code = slot other) : code = other :=
  KeyCode.usage_injective (UInt8.toNat_inj.1 (Fin.val_eq_of_eq h))

/-- In the empty register no code is held. -/
@[simp] theorem count_empty (code : KeyCode) : empty.count code = 0 := by
  simp [count, empty]

/-- Setting a count changes the one code it is for. -/
@[simp] theorem count_set (r : Register) (code other : KeyCode) (n : Nat) :
    (r.set code n).count other = if code = other then n else r.count other := by
  unfold count set
  rw [Fin.getElem_fin, Vector.getElem_set]
  by_cases h : code = other
  · simp [h]
  · have : (slot code).val ≠ (slot other).val := fun e => h (slot_injective (Fin.ext e))
    simp [h, this]

/-- The registered codes are those with a holder. -/
theorem mem_registered {r : Register} {code : KeyCode} : code ∈ r.registered ↔ 0 < r.count code := by
  simp [registered, KeyCode.mem_all, isRegistered]

end Register

end KeyEngine
