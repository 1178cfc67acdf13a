import KeyEngine.Proofs.Holdings
import KeyEngine.Proofs.Layers
import KeyEngine.Proofs.Operations

/-!
# What is on and what is asked for

Keys ask for codes, modifiers and layers, and codes and modifiers are counted: a count should be how many
ask. `Meets` says that what is on meets a demand, where the modifiers of the layers that are on are asked
for in addition, and that no layer is held for which nobody asks. A count stops at its limit and is too
low from then on, so the agreement comes in two strengths: no count is ever too high, and none is too low
if it is `exact`, which holds as long as the demand keeps away from the limit. `HeldBy` is the part of it
that is about one modifier, which keys and layers hold.
-/

namespace KeyEngine

/-- A count is not higher than what is asked for, and is just that if it is exact. -/
def Agrees (exact : Prop) (count asked : Nat) : Prop := count ≤ asked ∧ (exact → asked ≤ count)

namespace Agrees

variable {exact : Prop} {count asked : Nat}

/-- An exact count is what is asked for. -/
theorem eq (agrees : Agrees exact count asked) (sure : exact) : count = asked :=
  Nat.le_antisymm agrees.1 (agrees.2 sure)

/-- A count of nothing agrees with nothing asked for. -/
theorem zero (exact : Prop) : Agrees exact 0 0 := ⟨Nat.le_refl 0, fun _ => Nat.le_refl 0⟩

/-- Counting once more meets one more that asks, as long as the limit is not passed. -/
theorem raise (agrees : Agrees exact count asked) {limit : Nat} {also : Bool}
    (room : exact → asked + also.toNat ≤ limit) :
    Agrees exact (if also then min limit (count + 1) else count) (asked + also.toNat) := by
  cases also with
  | false => exact agrees
  | true =>
    have high := agrees.1
    constructor
    · simp only [if_true, Bool.toNat_true]
      omega
    · intro sure
      have low := agrees.2 sure
      have space : asked + 1 ≤ limit := room sure
      simp only [if_true, Bool.toNat_true]
      omega

/-- Counting once less meets one less that asks. -/
theorem lower {also : Bool} (agrees : Agrees exact count (asked + also.toNat)) :
    Agrees exact (if also then count - 1 else count) asked := by
  cases also with
  | false => exact agrees
  | true =>
    have high : count ≤ asked + 1 := agrees.1
    constructor
    · simp only [if_true]
      omega
    · intro sure
      have low : asked + 1 ≤ count := agrees.2 sure
      simp only [if_true]
      omega

end Agrees

/-- How many ask for each code, for each modifier attached to a stroke, for each modifier to be held and
for each layer to be held. -/
@[ext] structure Demand where
  /-- How many ask for a code. -/
  codes : KeyCode → Nat
  /-- How many ask for a modifier with a stroke. -/
  attached : Modifier → Nat
  /-- How many ask for a modifier to be held. -/
  held : Modifier → Nat
  /-- How many ask for a layer to be held. -/
  layers : LayerId → Nat

namespace Demand

/-- Nothing is asked for. -/
def none : Demand := ⟨fun _ => 0, fun _ => 0, fun _ => 0, fun _ => 0⟩

/-- One more asks for a stroke. -/
def press (d : Demand) (stroke : Keystroke) : Demand where
  codes code := d.codes code + (decide (stroke.code = code)).toNat
  attached m := d.attached m + (stroke.allModifiers.contains m).toNat
  held := d.held
  layers := d.layers

/-- One more asks for modifiers to be held. -/
def hold (d : Demand) (set : ModifierSet) : Demand :=
  { d with held := fun m => d.held m + (set.contains m).toNat }

/-- One more asks for a layer to be held. -/
def holdLayer (d : Demand) (id : LayerId) : Demand :=
  { d with layers := fun other => d.layers other + (decide (id = other)).toNat }

/-- No code and no modifier is asked for by more than `most`. -/
structure AtMost (d : Demand) (most : Nat) : Prop where
  codes : ∀ code, d.codes code ≤ most
  attached : ∀ m, d.attached m ≤ most
  held : ∀ m, d.held m ≤ most

/-- The largest demand that is counted exactly whatever layers are on. -/
def largest : Nat := Tally.limit - LayerStack.maxEntries

namespace AtMost

variable {d : Demand} {most : Nat}

/-- A demand that stays below a bound stays below every higher one. -/
theorem mono (few : d.AtMost most) {more : Nat} (le : most ≤ more) : d.AtMost more :=
  ⟨fun code => Nat.le_trans (few.codes code) le, fun m => Nat.le_trans (few.attached m) le,
    fun m => Nat.le_trans (few.held m) le⟩

/-- A stroke that is only tapped does not pass the limit. -/
theorem press (few : d.AtMost largest) (stroke : Keystroke) :
    (d.press stroke).AtMost Tally.limit := by
  have space : largest + 1 ≤ Tally.limit := by decide
  constructor
  · intro code
    have one := Bool.toNat_le (decide (stroke.code = code))
    have asked := few.codes code
    simp only [Demand.press]
    omega
  · intro m
    have one := Bool.toNat_le (stroke.allModifiers.contains m)
    have asked := few.attached m
    simp only [Demand.press]
    omega
  · intro m
    have asked := few.held m
    simp only [Demand.press]
    omega

end AtMost

end Demand

/-- How many of some layers hold a modifier. -/
def LayerModifiers.share (lm : LayerModifiers) (ids : List LayerId) (m : Modifier) : Nat :=
  ids.countP (lm.holds · m)

namespace LayerModifiers

variable (lm : LayerModifiers)

/-- The share of a modifier depends on which layers are on, not on their order. -/
theorem share_congr {ids others : List LayerId} (distinct : ids.Nodup) (distinct' : others.Nodup)
    (same : ∀ id, id ∈ others ↔ id ∈ ids) (m : Modifier) : lm.share others m = lm.share ids m :=
  ((List.perm_ext_iff_of_nodup distinct' distinct).2 same).countP_eq _

/-- One more layer holds what it holds. -/
theorem share_more {ids others : List LayerId} {id : LayerId} (distinct : ids.Nodup)
    (distinct' : others.Nodup) (absent : id ∉ ids)
    (listed : ∀ other, other ∈ others ↔ other ∈ ids ∨ other = id) (m : Modifier) :
    lm.share others m = lm.share ids m + (lm.holds id m).toNat := by
  have same : ∀ other, other ∈ others ↔ other ∈ id :: ids := fun other => by
    rw [listed, List.mem_cons, or_comm]
  rw [lm.share_congr (List.nodup_cons.2 ⟨absent, distinct⟩) distinct' same, share, List.countP_cons]
  cases lm.holds id m <;> rfl

/-- No modifier is held by more layers than there are entries on the stack. -/
theorem share_le (stack : LayerStack) (m : Modifier) :
    lm.share stack.activeIds m ≤ stack.entries.length :=
  Nat.le_trans List.countP_le_length stack.length_activeIds_le

end LayerModifiers

/-- What is asked for at most so often leaves room for all the layers that can be on. -/
theorem LayerStack.Sound.room {stack : LayerStack} (sound : stack.Sound) (lm : LayerModifiers)
    {asked : Nat} {m : Modifier} (few : asked ≤ Demand.largest) :
    asked + lm.share stack.activeIds m ≤ Tally.limit := by
  have layers := Nat.le_trans (lm.share_le stack m) sound.few
  have limits : Demand.largest + LayerStack.maxEntries = Tally.limit := by decide
  omega

namespace Register

/-- A press counts its code up by one, as far as the limit, and leaves the others. -/
theorem count_press (r : Register) (code other : KeyCode) : (r.press code).1.count other =
    if decide (code = other) then min limit (r.count other + 1) else r.count other := by
  by_cases same : code = other
  · simp [press, same]
  · simp [press, same]

/-- A code that is typed anew is counted up by one, as far as the limit, and the others stay. -/
theorem count_retype (r : Register) (code other : KeyCode) : (r.retype code).1.count other =
    if decide (code = other) then min limit (r.count other + 1) else r.count other := by
  by_cases same : code = other
  · simp [retype, same]
  · simp [retype, same]

/-- A release counts its code down by one, not below zero, and leaves the others. -/
theorem count_release (r : Register) (code other : KeyCode) : (r.release code).1.count other =
    if decide (code = other) then r.count other - 1 else r.count other := by
  by_cases same : code = other
  · simp [release, same]
  · simp [release, same]

end Register

namespace Holdings

/-- What is done to the code of a stroke is done to its count, if the code is no modifier key. -/
theorem count_mapCode {h : Holdings} {stroke : Keystroke} {code : KeyCode}
    (plain : code.isModifier = false) {f : Register → KeyCode → Register × List HostEvent}
    (change : Nat → Nat) (changes : ∀ r code other, (f r code).1.count other =
      if decide (code = other) then change (r.count other) else r.count other) :
    (h.mapCode stroke f).register.count code =
      if decide (stroke.code = code) then change (h.register.count code)
      else h.register.count code := by
  rw [register_mapCode]
  split
  · rename_i modifier
    have other : stroke.code ≠ code := by
      intro same
      rw [same, plain] at modifier
      cases modifier
    simp [other]
  · exact changes _ _ _

/-- A modifier is counted as often as it is held: so often by keys, and once more by every layer that is
on and holds it. The layers were switched on and off properly. -/
structure HeldBy (exact : Prop) (lm : LayerModifiers) (m : Modifier) (keys : Nat) (h : Holdings) :
    Prop where
  /-- The count and the holders agree. -/
  agrees : Agrees exact (h.modifiers.held.count m) (keys + lm.share h.layers.activeIds m)
  /-- The layers were switched on and off properly. -/
  sound : h.layers.Sound

namespace HeldBy

variable {exact : Prop} {lm : LayerModifiers} {m : Modifier} {keys : Nat} {h : Holdings}

/-- The held modifiers and the layers are all that matters. -/
theorem congr (heldBy : h.HeldBy exact lm m keys) {next : Holdings}
    (held : next.modifiers.held = h.modifiers.held) (layers : next.layers = h.layers) :
    next.HeldBy exact lm m keys :=
  ⟨held ▸ layers ▸ heldBy.agrees, layers ▸ heldBy.sound⟩

/-- One more key holds modifiers. -/
theorem holdModifiers (heldBy : h.HeldBy exact lm m keys) (set : ModifierSet)
    (room : exact → keys + (set.contains m).toNat + lm.share h.layers.activeIds m ≤ Tally.limit) :
    (h.holdModifiers set).HeldBy exact lm m (keys + (set.contains m).toNat) := by
  have holders : keys + (set.contains m).toNat + lm.share h.layers.activeIds m =
      keys + lm.share h.layers.activeIds m + (set.contains m).toNat := Nat.add_right_comm _ _ _
  refine ⟨?_, by simpa [Holdings.holdModifiers] using heldBy.sound⟩
  rw [Holdings.holdModifiers, modifiers_sync, layers_sync, modifiers_mapModifiers,
    layers_mapModifiers, ModifierState.hold, Tally.count_add, holders]
  exact heldBy.agrees.raise fun sure => holders ▸ room sure

/-- One less key holds modifiers. -/
theorem unholdModifiers {set : ModifierSet}
    (heldBy : h.HeldBy exact lm m (keys + (set.contains m).toNat)) :
    (h.unholdModifiers set).HeldBy exact lm m keys := by
  have counted := heldBy.agrees
  rw [Nat.add_right_comm] at counted
  refine ⟨?_, by simpa [Holdings.unholdModifiers] using heldBy.sound⟩
  rw [Holdings.unholdModifiers, modifiers_sync, layers_sync, modifiers_mapModifiers,
    layers_mapModifiers, ModifierState.unhold, Tally.count_remove]
  exact counted.lower

/-- A layer that goes on brings what it holds. -/
theorem layerOn (heldBy : h.HeldBy exact lm m keys) {stack : LayerStack} (sound : stack.Sound)
    {id : LayerId} (off : id ∉ h.layers.activeIds)
    (listed : ∀ other, other ∈ stack.activeIds ↔ other ∈ h.layers.activeIds ∨ other = id)
    (room : exact → keys + lm.share stack.activeIds m ≤ Tally.limit) :
    ({ h with layers := stack }.layerChanged lm id true).HeldBy exact lm m keys := by
  have more := lm.share_more h.layers.nodup_activeIds stack.nodup_activeIds off listed m
  refine ⟨?_, by rwa [layers_layerChanged]⟩
  rw [layers_layerChanged, modifiers_layerChanged, held_mapLayerModifiers, more, ← Nat.add_assoc]
  refine heldBy.agrees.raise fun sure => ?_
  rw [Nat.add_assoc, ← more]
  exact room sure

/-- A layer that goes off takes what it held. -/
theorem layerOff (heldBy : h.HeldBy exact lm m keys) {stack : LayerStack} (sound : stack.Sound)
    {id : LayerId} (off : id ∉ stack.activeIds)
    (listed : ∀ other, other ∈ h.layers.activeIds ↔ other ∈ stack.activeIds ∨ other = id) :
    ({ h with layers := stack }.layerChanged lm id false).HeldBy exact lm m keys := by
  have counted := heldBy.agrees
  rw [lm.share_more stack.nodup_activeIds h.layers.nodup_activeIds off listed, ← Nat.add_assoc]
    at counted
  refine ⟨?_, by rwa [layers_layerChanged]⟩
  rw [layers_layerChanged, modifiers_layerChanged, held_mapLayerModifiers]
  exact counted.lower

/-- A change of the stack that switches no layer on or off brings nothing and takes nothing. -/
theorem withLayers (heldBy : h.HeldBy exact lm m keys) {stack : LayerStack} (sound : stack.Sound)
    (same : ∀ id, id ∈ stack.activeIds ↔ id ∈ h.layers.activeIds) :
    { h with layers := stack }.HeldBy exact lm m keys := by
  refine ⟨?_, sound⟩
  show Agrees exact _ (keys + lm.share stack.activeIds m)
  rw [lm.share_congr h.layers.nodup_activeIds stack.nodup_activeIds same]
  exact heldBy.agrees

/-- Switching a layer on needs room for the layers that are on afterwards. -/
theorem activateLayer (heldBy : h.HeldBy exact lm m keys) (id : LayerId) (kind : Activation)
    (room : exact →
      keys + lm.share (h.activateLayer lm id kind).layers.activeIds m ≤ Tally.limit) :
    (h.activateLayer lm id kind).HeldBy exact lm m keys := by
  rw [layers_activateLayer] at room
  have listed := LayerStack.mem_activeIds_activate h.layers id kind
  have sound := heldBy.sound.activate id kind
  unfold Holdings.activateLayer
  split <;> rename_i stack answer <;> rw [answer] at listed sound room
  · obtain ⟨-, off, -⟩ := LayerStack.activate_opened (by rw [answer])
    exact heldBy.layerOn sound off (by simpa using listed) room
  · exact heldBy.withLayers sound (by simpa using listed)
  · exact (heldBy.withLayers sound (by simpa using listed)).congr rfl rfl

/-- A layer that goes off takes its share of a modifier with it. -/
theorem deactivateLayer (heldBy : h.HeldBy exact lm m keys) (id : LayerId) (kind : Activation) :
    (h.deactivateLayer lm id kind).HeldBy exact lm m keys := by
  have listed := LayerStack.mem_activeIds_deactivate heldBy.sound id kind
  have sound := heldBy.sound.deactivate id kind
  unfold Holdings.deactivateLayer
  split <;> rename_i stack answer <;> rw [answer] at listed sound
  · have on := LayerStack.deactivate_closed (s := h.layers) (by rw [answer])
    simp only [true_and] at listed
    refine heldBy.layerOff sound ?_ fun other => ?_
    · rw [listed]
      exact fun still => still.2 rfl
    · rw [listed]
      by_cases same : other = id
      · simp [same, on]
      · simp [same]
  · exact heldBy.withLayers sound (by simpa using listed)

/-- Nobody holds anything where nothing is on. -/
theorem empty (exact : Prop) (lm : LayerModifiers) (m : Modifier) {h : Holdings}
    (modifiers : h.modifiers = .empty) (layers : h.layers = .empty) : h.HeldBy exact lm m 0 := by
  refine ⟨?_, layers ▸ LayerStack.sound_empty⟩
  rw [modifiers, layers, LayerStack.activeIds_empty, ModifierState.empty, Tally.count_empty]
  exact .zero exact

end HeldBy

/-- What is on meets a demand. -/
structure Meets (exact : Prop) (lm : LayerModifiers) (h : Holdings) (d : Demand) : Prop where
  /-- The codes are counted; a modifier key has no place in the register. -/
  codes : ∀ code, code.isModifier = false → Agrees exact (h.register.count code) (d.codes code)
  /-- The modifiers attached to strokes are counted. -/
  attached : ∀ m, Agrees exact (h.modifiers.attached.count m) (d.attached m)
  /-- The modifiers that are held are counted, those of layers among them. -/
  held : ∀ m, Agrees exact (h.modifiers.held.count m)
    (d.held m + lm.share h.layers.activeIds m)
  /-- The layers were switched on and off properly. -/
  sound : h.layers.Sound
  /-- A layer is held only if that is asked for. -/
  entered : ∀ id, ⟨id, .held⟩ ∈ h.layers.entries → 0 < d.layers id

namespace Meets

variable {exact : Prop} {lm : LayerModifiers} {h : Holdings} {d : Demand}

/-- The layers and the counts are all that matters. -/
theorem congr (meets : h.Meets exact lm d) {next : Holdings} (register : next.register = h.register)
    (attached : next.modifiers.attached = h.modifiers.attached)
    (held : next.modifiers.held = h.modifiers.held) (layers : next.layers = h.layers) :
    next.Meets exact lm d where
  codes code plain := register ▸ meets.codes code plain
  attached m := attached ▸ meets.attached m
  held m := held ▸ layers ▸ meets.held m
  sound := layers ▸ meets.sound
  entered id listed := meets.entered id (layers ▸ listed)

/-- A note in the journal changes no count. -/
theorem announce (meets : h.Meets exact lm d) (signal : Signal) :
    (h.announce signal).Meets exact lm d :=
  meets.congr rfl rfl rfl rfl

/-- Telling the host which modifiers are in force changes no count. -/
theorem sync (meets : h.Meets exact lm d) : h.sync.Meets exact lm d :=
  meets.congr (register_sync h) (by rw [modifiers_sync]) (by rw [modifiers_sync]) (layers_sync h)

/-- Where nothing is on, nothing need be asked for. -/
theorem empty (exact : Prop) (lm : LayerModifiers) {h : Holdings} (register : h.register = .empty)
    (modifiers : h.modifiers = .empty) (layers : h.layers = .empty) :
    h.Meets exact lm .none where
  codes code _ := by
    rw [register, Register.count_empty]
    exact .zero exact
  attached m := by
    rw [modifiers, ModifierState.empty, Tally.count_empty]
    exact .zero exact
  held m := (HeldBy.empty exact lm m modifiers layers).agrees
  sound := layers ▸ LayerStack.sound_empty
  entered id listed := by
    rw [layers] at listed
    cases listed

/-- Only codes can change where the code of a stroke is pressed or released. -/
theorem mapCode (meets : h.Meets exact lm d) (stroke : Keystroke)
    {f : Register → KeyCode → Register × List HostEvent} {asked : KeyCode → Nat}
    (codes : ∀ code, code.isModifier = false →
      Agrees exact ((h.mapCode stroke f).register.count code) (asked code)) :
    (h.mapCode stroke f).Meets exact lm { d with codes := asked } where
  codes := codes
  attached m := by
    rw [modifiers_mapCode]
    exact meets.attached m
  held m := by
    rw [layers_mapCode, modifiers_mapCode]
    exact meets.held m
  sound := by
    rw [layers_mapCode]
    exact meets.sound
  entered := by
    rw [layers_mapCode]
    exact meets.entered

/-- Attaching the modifiers of a stroke meets one more that asks for them. -/
theorem attach (meets : h.Meets exact lm d) (stroke : Keystroke)
    (room : exact → ∀ m, d.attached m + (stroke.allModifiers.contains m).toNat ≤ Tally.limit) :
    (h.attach stroke).Meets exact lm { d with attached := (d.press stroke).attached } where
  codes code plain := by
    rw [register_attach]
    exact meets.codes code plain
  attached m := by
    rw [modifiers_attach, ModifierState.attach, Tally.count_add]
    exact (meets.attached m).raise fun sure => room sure m
  held m := by
    rw [layers_attach, modifiers_attach]
    exact meets.held m
  sound := by
    rw [layers_attach]
    exact meets.sound
  entered := by
    rw [layers_attach]
    exact meets.entered

/-- Pressing a stroke in any way meets one more that asks for it. -/
theorem press (meets : h.Meets exact lm d) (stroke : Keystroke)
    (room : exact → (d.press stroke).AtMost Tally.limit)
    {f : Register → KeyCode → Register × List HostEvent}
    (pressed : ∀ r code other, (f r code).1.count other =
      if decide (code = other) then min Register.limit (r.count other + 1) else r.count other) :
    ((h.attach stroke).mapCode stroke f).Meets exact lm (d.press stroke) := by
  have attached := meets.attach stroke fun sure => (room sure).attached
  refine attached.mapCode stroke fun code plain => ?_
  have counted := meets.codes code plain
  rw [count_mapCode plain (fun count => min Register.limit (count + 1)) pressed, register_attach]
  exact counted.raise fun sure => (room sure).codes code

/-- A stroke that is pressed meets the demand of one more key that asks for it. -/
theorem pressStroke (meets : h.Meets exact lm d) (stroke : Keystroke)
    (room : exact → (d.press stroke).AtMost Tally.limit) :
    (h.pressStroke stroke).Meets exact lm (d.press stroke) :=
  meets.press stroke room Register.count_press

/-- A stroke that is typed anew meets the demand of one more key that asks for it. -/
theorem retypeStroke (meets : h.Meets exact lm d) (stroke : Keystroke)
    (room : exact → (d.press stroke).AtMost Tally.limit) :
    (h.retypeStroke stroke).Meets exact lm (d.press stroke) :=
  meets.press stroke room Register.count_retype

/-- Taking back the modifiers of a stroke meets one less that asks for them, when its code was taken
back already. -/
theorem detach (meets : h.Meets exact lm d) {stroke : Keystroke} {before : Modifier → Nat}
    (asked : ∀ m, d.attached m = before m + (stroke.allModifiers.contains m).toNat) :
    (h.detach stroke).Meets exact lm { d with attached := before } where
  codes code plain := by
    rw [register_detach]
    exact meets.codes code plain
  attached m := by
    rw [modifiers_detach, ModifierState.detach, Tally.count_remove]
    exact Agrees.lower (asked m ▸ meets.attached m)
  held m := by
    rw [layers_detach, modifiers_detach]
    exact meets.held m
  sound := by
    rw [layers_detach]
    exact meets.sound
  entered := by
    rw [layers_detach]
    exact meets.entered

/-- Releasing a stroke meets one less that asks for it. -/
theorem releaseStroke {stroke : Keystroke} (meets : h.Meets exact lm (d.press stroke)) :
    (h.releaseStroke stroke).Meets exact lm d := by
  have lifted : (h.mapCode stroke Register.release).Meets exact lm
      { d.press stroke with codes := d.codes } := by
    refine meets.mapCode stroke fun code plain => ?_
    have counted := meets.codes code plain
    rw [count_mapCode plain (· - 1) Register.count_release]
    exact counted.lower
  exact lifted.detach fun _ => rfl

/-- Tapping a stroke changes nothing that is asked for in the end. -/
theorem tapStroke (meets : h.Meets exact lm d) (stroke : Keystroke)
    (room : exact → d.AtMost Demand.largest) : (h.tapStroke stroke).Meets exact lm d := by
  have attached := meets.attach stroke fun sure => ((room sure).press stroke).attached
  have tapped : ((h.attach stroke).mapCode stroke Register.tap).Meets exact lm
      { d with attached := (d.press stroke).attached } := by
    refine attached.mapCode stroke fun code plain => ?_
    have same : ((h.attach stroke).mapCode stroke Register.tap).register = h.register := by
      rw [register_mapCode, register_attach]
      simp [Register.tap]
    rw [same]
    exact meets.codes code plain
  exact tapped.detach fun _ => rfl

/-- Strokes that are tapped in a row leave the demand met as it was. -/
theorem tapStrokes (meets : h.Meets exact lm d) (strokes : List Keystroke)
    (room : exact → d.AtMost Demand.largest) : (h.tapStrokes strokes).Meets exact lm d :=
  List.foldlRecOn strokes _ (motive := (Meets exact lm · d)) meets
    fun _ meets stroke _ => meets.tapStroke stroke room

/-- While shift is masked, the shifted stroke of a manual-shift key is pressed like any other. -/
theorem pressManualShift (meets : h.Meets exact lm d) (unshifted shifted : Keystroke)
    (room : exact → (d.press (h.chooseShifted unshifted shifted)).AtMost Tally.limit) :
    (h.pressManualShift unshifted shifted).Meets exact lm
      (d.press (h.chooseShifted unshifted shifted)) := by
  unfold Holdings.pressManualShift
  unfold chooseShifted at room ⊢
  dsimp only
  split
  · rename_i off
    rw [if_pos off] at room
    exact meets.pressStroke unshifted room
  · rename_i on
    rw [if_neg on] at room
    have masked : (h.mapModifiers (·.suppress h.shiftOn)).Meets exact lm d :=
      meets.congr rfl rfl rfl rfl
    have pressed := masked.pressStroke shifted room
    have unmasked : (((h.mapModifiers (·.suppress h.shiftOn)).pressStroke shifted).mapModifiers
        (·.unsuppress h.shiftOn)).Meets exact lm (d.press shifted) :=
      pressed.congr rfl rfl rfl rfl
    exact unmasked.sync

/-- The count of a modifier agrees with those who hold it. -/
theorem heldBy (meets : h.Meets exact lm d) (m : Modifier) : h.HeldBy exact lm m (d.held m) :=
  ⟨meets.held m, meets.sound⟩

/-- Holding modifiers meets one more that asks to hold them. -/
theorem holdModifiers (meets : h.Meets exact lm d) (set : ModifierSet)
    (room : exact → (d.hold set).AtMost Demand.largest) :
    (h.holdModifiers set).Meets exact lm (d.hold set) := by
  refine sync (h := h.mapModifiers (·.hold set)) ⟨meets.codes, meets.attached, fun m => ?_,
    meets.sound, meets.entered⟩
  have holds := (meets.heldBy m).holdModifiers set fun sure =>
    meets.sound.room lm ((room sure).held m)
  simpa [Holdings.holdModifiers, Demand.hold] using holds.agrees

/-- Letting go of modifiers meets one less that asks to hold them. -/
theorem unholdModifiers {set : ModifierSet} (meets : h.Meets exact lm (d.hold set)) :
    (h.unholdModifiers set).Meets exact lm d := by
  refine sync (h := h.mapModifiers (·.unhold set)) ⟨meets.codes, meets.attached, fun m => ?_,
    meets.sound, meets.entered⟩
  have lets := HeldBy.unholdModifiers (meets.heldBy m)
  simpa [Holdings.unholdModifiers] using lets.agrees

/-- A layer may be switched on; one that is held has to be asked for. -/
theorem activateLayer (meets : h.Meets exact lm d) (id : LayerId) {kind : Activation}
    (asked : kind = .held → 0 < d.layers id) (room : exact → d.AtMost Demand.largest) :
    (h.activateLayer lm id kind).Meets exact lm d where
  codes code plain := by
    rw [register_activateLayer]
    exact meets.codes code plain
  attached m := by
    rw [modifiers_activateLayer]
    exact meets.attached m
  held m := by
    refine ((meets.heldBy m).activateLayer id kind fun sure => ?_).agrees
    rw [layers_activateLayer]
    exact (meets.sound.activate id kind).room lm ((room sure).held m)
  sound := by
    rw [layers_activateLayer]
    exact meets.sound.activate id kind
  entered other listed := by
    rw [layers_activateLayer] at listed
    rcases LayerStack.mem_activate listed with earlier | added
    · exact meets.entered other earlier
    · cases added
      exact asked rfl

/-- A layer that goes off leaves the demand met, since a layer that is asked for need not be on. -/
theorem deactivateLayer (meets : h.Meets exact lm d) (id : LayerId) (kind : Activation) :
    (h.deactivateLayer lm id kind).Meets exact lm d where
  codes code plain := by
    rw [register_deactivateLayer]
    exact meets.codes code plain
  attached m := by
    rw [modifiers_deactivateLayer]
    exact meets.attached m
  held m := ((meets.heldBy m).deactivateLayer id kind).agrees
  sound := by
    rw [layers_deactivateLayer]
    exact meets.sound.deactivate id kind
  entered other listed := by
    rw [layers_deactivateLayer] at listed
    exact meets.entered other (LayerStack.mem_deactivate.1 listed).1

/-- A toggled layer leaves the demand of the keys met, for no key asks for it. -/
theorem toggleLayer (meets : h.Meets exact lm d) (id : LayerId)
    (room : exact → d.AtMost Demand.largest) : (h.toggleLayer lm id).Meets exact lm d := by
  unfold Holdings.toggleLayer
  split
  · exact meets.deactivateLayer id .toggled
  · exact meets.activateLayer id Activation.noConfusion room

/-- Holding a layer meets one more that asks to hold it. -/
theorem holdLayer (meets : h.Meets exact lm d) (id : LayerId)
    (room : exact → (d.holdLayer id).AtMost Demand.largest) :
    (h.activateLayer lm id .held).Meets exact lm (d.holdLayer id) := by
  have more : h.Meets exact lm (d.holdLayer id) := by
    refine ⟨meets.codes, meets.attached, meets.held, meets.sound, fun other listed => ?_⟩
    exact Nat.lt_of_lt_of_le (meets.entered other listed) (Nat.le_add_right _ _)
  refine more.activateLayer id (fun _ => ?_) room
  simp [Demand.holdLayer]

/-- Letting go of a layer meets one less that asks to hold it. -/
theorem unholdLayer {id : LayerId} (meets : h.Meets exact lm (d.holdLayer id)) :
    (h.deactivateLayer lm id .held).Meets exact lm d := by
  have closed := meets.deactivateLayer id .held
  refine ⟨closed.codes, closed.attached, closed.held, closed.sound, fun other listed => ?_⟩
  have asked := closed.entered other listed
  rw [layers_deactivateLayer, LayerStack.mem_deactivate] at listed
  have differs : id ≠ other := by
    rintro rfl
    exact listed.2 rfl
  simpa [Demand.holdLayer, differs] using asked

/-- Once everything is released, nothing is on and no demand is left. -/
theorem releaseEverything (exact : Prop) (lm : LayerModifiers) (h : Holdings) :
    (h.releaseEverything lm).Meets exact lm .none :=
  .empty exact lm (register_releaseEverything h lm) (modifiers_releaseEverything h lm)
    (layers_releaseEverything h lm)

end Meets

/-- One-shots ask for nothing that is counted here. -/
theorem meets_oneShotDurable {exact : Prop} (lm : LayerModifiers) {d : Demand}
    (room : exact → d.AtMost Demand.largest) : OneShotDurable lm (Meets exact lm · d) where
  applyOneShotLayer h id change meets := by
    cases change with
    | apply => exact meets.activateLayer id Activation.noConfusion room
    | revoke => exact meets.deactivateLayer id .oneShot
  applyOneShotModifiers h set change meets := by
    cases change with
    | apply =>
      have added : (h.mapModifiers (·.addOneShot set)).Meets exact lm d :=
        meets.congr rfl rfl rfl rfl
      exact added.sync
    | revoke =>
      have removed : (h.mapModifiers (·.removeOneShot set)).Meets exact lm d :=
        meets.congr rfl rfl rfl rfl
      exact removed.sync

end Holdings

end KeyEngine
