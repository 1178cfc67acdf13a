import KeyEngine.Action
import KeyEngine.KeyEvent

/-!
# Keymaps

A keymap gives every key an action on each layer. Its base layer lists all keys and leaves none
transparent, and every action refers to a layer that exists. `Keymap.ofLayers` refuses everything else,
with the first fault as the error; `firstFault_eq_none_iff` says that nothing but these rules is
refused.
-/

namespace KeyEngine

/-- A named layer with the actions of its keys, in the order of the keys. It may be shorter than the
base layer. -/
structure Layer where
  /-- The name, by which the configuration refers to the layer. -/
  name : String
  /-- The actions. -/
  keys : List Action
deriving DecidableEq

/-- Why layers make no keymap. -/
inductive KeymapError where
  /-- There is no base layer, or it has no keys. -/
  | emptyBaseLayer
  /-- A key of the base layer is transparent. -/
  | transparentBase (key : Nat)
  /-- More layers than a keymap may have. -/
  | tooManyLayers (count : Nat)
  /-- A key refers to a layer that is not there. -/
  | undefinedLayer (layer : String) (key : Nat) (target : LayerId)
deriving DecidableEq

/-- The wording of the error. -/
def KeymapError.message : KeymapError → String
  | emptyBaseLayer => "the base layer is empty"
  | transparentBase key => "base layer key " ++ toString key ++ " is transparent"
  | tooManyLayers count => toString count ++ " layers defined, at most 32 are supported"
  | undefinedLayer layer key target =>
    "layer '" ++ layer ++ "' key " ++ toString key ++ " refers to undefined layer " ++
      toString target.toNat

namespace Keymap

/-- The largest number of layers. -/
def maxLayers : Nat := 32

/-- The rules for the layers of a keymap. -/
structure WellFormed (layers : List Layer) : Prop where
  /-- There are not too many layers. -/
  length_le : layers.length ≤ maxLayers
  /-- There is a base layer with at least one key. -/
  base_keys : ∃ base ∈ layers.head?, base.keys ≠ []
  /-- No key of the base layer is transparent. -/
  base_opaque : ∀ base ∈ layers.head?, Action.transparent ∉ base.keys
  /-- Every action refers to a layer that exists. -/
  targets_exist : ∀ layer ∈ layers, ∀ action ∈ layer.keys, ∀ target ∈ action.layer?,
    target.toNat < layers.length

/-- The first key, counted from `start`, whose action refers to no layer below `count`. -/
def danglingFrom (count start : Nat) : List Action → Option (Nat × LayerId)
  | [] => none
  | action :: rest =>
    match action.layer? with
    | some target => if target.toNat < count then danglingFrom count (start + 1) rest
      else some (start, target)
    | none => danglingFrom count (start + 1) rest

/-- The first key of a layer that refers to no layer below `count`, as an error. -/
def danglingIn (count : Nat) (layer : Layer) : Option KeymapError :=
  (danglingFrom count 0 layer.keys).map fun (key, target) => .undefinedLayer layer.name key target

/-- The first rule that the layers break. -/
def firstFault (layers : List Layer) : Option KeymapError :=
  if maxLayers < layers.length then some (.tooManyLayers layers.length)
  else
    match layers with
    | [] => some .emptyBaseLayer
    | base :: _ =>
      if base.keys.isEmpty then some .emptyBaseLayer
      else
        match base.keys.findIdx? (· == .transparent) with
        | some key => some (.transparentBase key)
        | none => layers.findSome? (danglingIn layers.length)

/-- No dangling reference is reported exactly when every layer the keys name exists. -/
theorem danglingFrom_eq_none_iff {count start : Nat} {keys : List Action} :
    danglingFrom count start keys = none ↔
      ∀ action ∈ keys, ∀ target ∈ action.layer?, target.toNat < count := by
  induction keys generalizing start with
  | nil => simp [danglingFrom]
  | cons action rest ih =>
    unfold danglingFrom
    split
    next target ht =>
      split
      next hlt => simp [ih, ht, hlt]
      next hge => simp [ht, hge]
    next ht => simp [ih, ht]

/-- A layer passes the check exactly when every layer its keys name exists. -/
theorem danglingIn_eq_none_iff {count : Nat} {layer : Layer} :
    danglingIn count layer = none ↔
      ∀ action ∈ layer.keys, ∀ target ∈ action.layer?, target.toNat < count := by
  simp [danglingIn, danglingFrom_eq_none_iff]

/-- No fault is found exactly when all rules hold. -/
theorem firstFault_eq_none_iff {layers : List Layer} :
    firstFault layers = none ↔ WellFormed layers := by
  unfold firstFault
  split
  next h =>
    simp only [reduceCtorEq, false_iff]
    exact fun w => absurd w.length_le (by omega)
  next h =>
    split
    next =>
      simp only [reduceCtorEq, false_iff]
      rintro ⟨-, ⟨_, hb, -⟩, -, -⟩
      simp at hb
    next base rest =>
      split
      next he =>
        simp only [reduceCtorEq, false_iff]
        rintro ⟨-, ⟨b, hb, hk⟩, -, -⟩
        simp_all
      next he =>
        split
        next key hkey =>
          simp only [reduceCtorEq, false_iff]
          intro w
          have ⟨hlt, hkey, _⟩ := List.findIdx?_eq_some_iff_getElem.1 hkey
          have := w.base_opaque base rfl
          have hmem := List.getElem_mem hlt
          rw [eq_of_beq hkey] at hmem
          exact this hmem
        next hkey =>
          simp only [List.findSome?_eq_none_iff, danglingIn_eq_none_iff]
          constructor
          · intro ht
            refine ⟨by omega, ⟨base, rfl, by simpa using he⟩, ?_, ht⟩
            rintro b ⟨⟩ hmem
            have := List.findIdx?_eq_none_iff.1 hkey _ hmem
            simp at this
          · exact fun w => w.targets_exist

end Keymap

/-- Layers that obey the rules. -/
structure Keymap where
  /-- The layers, base layer first. -/
  layers : List Layer
  /-- The rules hold. -/
  wellFormed : Keymap.WellFormed layers

namespace Keymap

/-- The keymap with given layers, or the first rule that they break. -/
def ofLayers (layers : List Layer) : Except KeymapError Keymap :=
  match h : firstFault layers with
  | some error => .error error
  | none => .ok ⟨layers, firstFault_eq_none_iff.1 h⟩

/-- The number of layers. -/
def size (map : Keymap) : Nat := map.layers.length

/-- The number of keys of the base layer. -/
def width (map : Keymap) : Nat := (map.layers.head?.map (·.keys.length)).getD 0

/-- The name of a layer. -/
def layerName? (map : Keymap) (id : LayerId) : Option String := map.layers[id.toNat]?.map (·.name)

/-- The first layer with a name, in any case of its letters. -/
def layerId? (map : Keymap) (name : String) : Option LayerId :=
  (map.layers.findIdx? fun layer => Text.sameLetters layer.name.toList name.toList).map UInt8.ofNat

/-- The entry of a key on a layer; a layer may have no entry for it. -/
def action? (map : Keymap) (layer : LayerId) (key : Key) : Option Action :=
  map.layers[layer.toNat]?.bind fun l => l.keys[key.number.toNat]?

/-- The entry of a key on the base layer. A key past its end does nothing. -/
def base (map : Keymap) (key : Key) : Action := (map.action? baseLayer key).getD .noOp

/-- A keymap is accepted exactly with the layers it was given. -/
theorem ofLayers_eq_ok_iff {layers : List Layer} {map : Keymap} :
    ofLayers layers = .ok map ↔ map.layers = layers := by
  obtain ⟨kept, w⟩ := map
  unfold ofLayers
  split
  next error h =>
    simp only [reduceCtorEq, false_iff]
    rintro rfl
    simp [firstFault_eq_none_iff.2 w] at h
  next h => simp [eq_comm]

/-- The entry of a key on the base layer is never transparent. -/
theorem base_ne_transparent (map : Keymap) (key : Key) : map.base key ≠ .transparent := by
  unfold base action?
  intro h
  cases hl : map.layers with
  | nil => simp [hl] at h
  | cons b rest =>
    have hmem : Action.transparent ∉ b.keys := map.wellFormed.base_opaque b (by simp [hl])
    cases hk : b.keys[key.number.toNat]? with
    | none => simp [hl, baseLayer, hk] at h
    | some a =>
      simp [hl, baseLayer, hk] at h
      exact hmem (h ▸ List.mem_of_getElem? hk)

end Keymap

end KeyEngine
