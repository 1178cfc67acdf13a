import KeyEngine.Keymap

/-!
# The stack of active layers

Layers are switched on for three reasons, and a layer may be on for several of them at once. Each
reason is an entry of the stack; the entry switched on last has the highest priority, and a key means
what the highest entry says that is not transparent for it. The base layer lies below all entries and
is never one of them.
-/

namespace KeyEngine

/-- Why a layer is on. -/
inductive Activation where
  /-- A key holds it. -/
  | held
  /-- It waits for the next key. -/
  | oneShot
  /-- It was switched on until it is switched off. -/
  | toggled
deriving DecidableEq

/-- A layer that is on for one reason. -/
structure LayerEntry where
  /-- The layer. -/
  id : LayerId
  /-- The reason. -/
  kind : Activation
deriving DecidableEq

/-- What became of switching a layer on. -/
inductive Opening where
  /-- The layer was off and is on now. -/
  | opened
  /-- The layer was on before. -/
  | kept
  /-- There is no room for another entry. -/
  | refused
deriving DecidableEq

/-- The layers that are on. -/
structure LayerStack where
  /-- The entries from the highest to the lowest priority. -/
  entries : List LayerEntry
deriving DecidableEq

namespace LayerStack

/-- The largest number of entries. -/
def maxEntries : Nat := 8

/-- No layer but the base layer is on. -/
def empty : LayerStack := ⟨[]⟩

/-- Whether a layer is on for any reason; the base layer always is. -/
def isActive (s : LayerStack) (id : LayerId) : Bool :=
  id == baseLayer || s.entries.any (·.id == id)

/-- Whether a layer is on for a given reason. -/
def contains (s : LayerStack) (id : LayerId) (kind : Activation) : Bool :=
  s.entries.contains ⟨id, kind⟩

/-- Switches a layer on. An entry that is there already moves to the top, even of a full stack. -/
def activate (s : LayerStack) (id : LayerId) (kind : Activation) : LayerStack × Opening :=
  if id = baseLayer then (s, .kept)
  else if s.contains id kind then (⟨⟨id, kind⟩ :: s.entries.erase ⟨id, kind⟩⟩, .kept)
  else if maxEntries ≤ s.entries.length then (s, .refused)
  else (⟨⟨id, kind⟩ :: s.entries⟩, if s.isActive id then .kept else .opened)

/-- Takes back one reason for a layer, and says whether that switched the layer off. -/
def deactivate (s : LayerStack) (id : LayerId) (kind : Activation) : LayerStack × Bool :=
  let rest : LayerStack := ⟨s.entries.filter (· != ⟨id, kind⟩)⟩
  (rest, s.contains id kind && !rest.isActive id)

/-- The layers that are on, each once, in the order of their highest entries. -/
def activeIds (s : LayerStack) : List LayerId := (s.entries.map (·.id)).eraseDups

/-- Switches every layer off, and says which layers went off. -/
def clear (s : LayerStack) : LayerStack × List LayerId := (empty, s.activeIds)

/-- What a key means: the entry of the highest layer that is not transparent for it, else the entry of
the base layer. -/
def resolve (s : LayerStack) (map : Keymap) (key : Key) : Action :=
  ((s.entries.filterMap fun e => map.action? e.id key).find? (· != .transparent)).getD (map.base key)

/-- The stack contains an activation exactly when it is among its entries. -/
@[simp] theorem contains_iff {s : LayerStack} {id : LayerId} {kind : Activation} :
    s.contains id kind = true ↔ ⟨id, kind⟩ ∈ s.entries := by
  simp [contains]

/-- The base layer is always on. -/
@[simp] theorem isActive_base (s : LayerStack) : s.isActive baseLayer = true := by simp [isActive]

/-- Clearing leaves the empty stack. -/
@[simp] theorem fst_clear (s : LayerStack) : s.clear.1 = empty := rfl

/-- Clearing returns the layers that were on. -/
@[simp] theorem snd_clear (s : LayerStack) : s.clear.2 = s.activeIds := rfl

/-- A layer is on when it is the base layer or some activation of it is on the stack. -/
theorem isActive_iff {s : LayerStack} {id : LayerId} :
    s.isActive id = true ↔ id = baseLayer ∨ ∃ kind, ⟨id, kind⟩ ∈ s.entries := by
  simp only [isActive, Bool.or_eq_true, beq_iff_eq, List.any_eq_true]
  constructor
  · rintro (h | ⟨⟨i, k⟩, hm, rfl⟩)
    · exact .inl h
    · exact .inr ⟨k, hm⟩
  · rintro (h | ⟨k, hm⟩)
    · exact .inl h
    · exact .inr ⟨_, hm, rfl⟩

end LayerStack

end KeyEngine
