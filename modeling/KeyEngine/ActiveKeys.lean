import KeyEngine.Action
import KeyEngine.KeyEvent

/-!
# Keys that are down

For every key that is down and whose press was acted on, the engine remembers what the press did, so
that the release undoes exactly that, however the layers have changed in between.
-/

namespace KeyEngine

/-- What a press did, and its release has to undo. -/
inductive KeyState where
  /-- It pressed a stroke. -/
  | stroke (stroke : Keystroke)
  /-- It holds modifiers. -/
  | modifiers (set : ModifierSet)
  /-- It is a tap-hold key that waits since a moment. -/
  | pending (since : Millis)
  /-- It is a tap-hold key that was tapped; its stroke is down. -/
  | tapped
  /-- It is a tap-hold key that is held. -/
  | held
  /-- It is the trigger of a one-shot. -/
  | oneShot
  /-- It holds a layer. -/
  | layer (id : LayerId)
  /-- There is nothing to undo. -/
  | inert
deriving DecidableEq

/-- A key that is down. -/
structure ActiveKey where
  /-- What its press resolved to. -/
  action : Action
  /-- What its press did. -/
  state : KeyState
deriving DecidableEq

/-- The keys that are down, each at most once. -/
structure ActiveKeys where
  /-- The keys with what they do. -/
  entries : List (Key × ActiveKey)
deriving DecidableEq

namespace ActiveKeys

/-- No key is down. -/
def empty : ActiveKeys := ⟨[]⟩

/-- What a key does, if it is down. -/
def find? (keys : ActiveKeys) (key : Key) : Option ActiveKey := keys.entries.lookup key

/-- Whether a key is down. -/
def contains (keys : ActiveKeys) (key : Key) : Bool := (keys.find? key).isSome

/-- Forgets a key. -/
def remove (keys : ActiveKeys) (key : Key) : ActiveKeys :=
  ⟨keys.entries.filter fun entry => entry.1 != key⟩

/-- A key goes down; what it did before is forgotten. -/
def insert (keys : ActiveKeys) (key : Key) (entry : ActiveKey) : ActiveKeys :=
  ⟨(key, entry) :: (keys.remove key).entries⟩

/-- Changes what a key did, if it is down. -/
def setState (keys : ActiveKeys) (key : Key) (state : KeyState) : ActiveKeys :=
  ⟨keys.entries.map fun entry =>
    if entry.1 = key then (entry.1, { entry.2 with state := state }) else entry⟩

/-- No release has anything to undo any more. -/
def makeInert (keys : ActiveKeys) : ActiveKeys :=
  ⟨keys.entries.map fun entry => (entry.1, { entry.2 with state := .inert })⟩

section
variable {α β : Type} [DecidableEq α]

/-- Looking up in a list that starts with an entry. -/
theorem lookup_cons_ite (entry : α × β) (rest : List (α × β)) (key : α) :
    (entry :: rest).lookup key = if key = entry.1 then some entry.2 else rest.lookup key := by
  rw [List.lookup_cons]
  by_cases h : key = entry.1
  · simp [h]
  · rw [if_neg h, beq_false_of_ne h]

/-- Dropping every entry of a key hides that key and leaves the lookups of the others alone. -/
theorem lookup_filter_ne (entries : List (α × β)) (key other : α) :
    (entries.filter fun entry => entry.1 != key).lookup other =
      if other = key then none else entries.lookup other := by
  induction entries with
  | nil => simp
  | cons entry rest ih =>
    rw [List.filter_cons, lookup_cons_ite]
    by_cases hk : entry.1 = key
    · simp only [hk, bne_self_eq_false, Bool.false_eq_true, if_false, ih]
      split <;> rfl
    · simp only [bne_iff_ne, ne_eq, hk, not_false_eq_true, if_true, lookup_cons_ite, ih]
      split
      next h => simp [h, hk]
      next => rfl

/-- Looking up where every entry keeps its key. -/
theorem lookup_map {γ : Type} (entries : List (α × β)) (f : α × β → γ) (key : α) :
    (entries.map fun entry => (entry.1, f entry)).lookup key =
      (entries.lookup key).map fun value => f (key, value) := by
  induction entries with
  | nil => rfl
  | cons entry rest ih =>
    rw [List.map_cons, lookup_cons_ite, lookup_cons_ite, ih]
    split
    next h => simp [h]
    next => rfl

end

/-- No key is found where none is active. -/
@[simp] theorem find?_empty (key : Key) : empty.find? key = none := rfl

/-- After a removal the key is gone and every other key is found as before. -/
@[simp] theorem find?_remove (keys : ActiveKeys) (key other : Key) :
    (keys.remove key).find? other = if other = key then none else keys.find? other :=
  lookup_filter_ne _ _ _

/-- The key that was put in is found with its new entry; the others are found as before. -/
@[simp] theorem find?_insert (keys : ActiveKeys) (key other : Key) (entry : ActiveKey) :
    (keys.insert key entry).find? other = if other = key then some entry else keys.find? other := by
  rw [insert, find?, lookup_cons_ite, remove, lookup_filter_ne]
  split <;> rfl

/-- A change of state touches the entry of the key it names and no other. -/
@[simp] theorem find?_setState (keys : ActiveKeys) (key other : Key) (state : KeyState) :
    (keys.setState key state).find? other =
      (keys.find? other).map fun entry =>
        if other = key then { entry with state := state } else entry := by
  have : keys.setState key state = ⟨keys.entries.map fun entry =>
      (entry.1, if entry.1 = key then { entry.2 with state := state } else entry.2)⟩ := by
    unfold setState
    congr 2
    funext entry
    split <;> rfl
  rw [this]
  exact lookup_map _ _ _

/-- Every active key is still found after a cancel, now inert. -/
@[simp] theorem find?_makeInert (keys : ActiveKeys) (key : Key) :
    keys.makeInert.find? key = (keys.find? key).map ({ · with state := .inert }) :=
  lookup_map _ _ _

end ActiveKeys

end KeyEngine
