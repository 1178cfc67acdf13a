import KeyEngine.Proofs.TurnedOn

/-!
# What keys mean

`Keymap.Means` says what a key means under layers from the highest to the lowest: a layer that has an
entry for the key and is not transparent there decides, and where none does the base layer has the last
word. `LayerStack.resolve_eq_iff` says that keys are resolved just so, and `resolve_filter` that the other
layers may as well not be there. On the stack of a run there are only layers of the keymap: whatever is
switched on is the target of an action, that action stands in the keymap, and a keymap has only actions
whose targets exist.
-/

namespace KeyEngine

/-- A keyboard with two keys for layers. The one layer replaces the last key, the other the key before it
and is too short for the last one. -/
def Profile.ragged : Profile where
  keymap :=
    ⟨[⟨"base", [.momentaryLayer 1, .momentaryLayer 2, .plain (.ofCode .a), .plain (.ofCode .b)]⟩,
      ⟨"long", [.transparent, .transparent, .transparent, .plain (.ofCode .c)]⟩,
      ⟨"short", [.transparent, .transparent, .plain (.ofCode .d)]⟩],
      Keymap.firstFault_eq_none_iff.1 (by decide)⟩
  settings := .standard
  layerModifiers := .none

/-- Both keys for layers go down. -/
def Call.bothLayers : List Call := [.down 0 0, .down 1 10]

namespace Keymap

variable {map : Keymap} {key : Key}

/-- Whether a layer decides what a key means: it has an entry for the key that is not transparent. -/
def decides (map : Keymap) (key : Key) (id : LayerId) : Bool :=
  (map.action? id key).any (· != .transparent)

/-- What a key means under layers from the highest to the lowest. -/
inductive Means (map : Keymap) (key : Key) : List LayerId → Action → Prop where
  /-- The highest layer has an entry for the key that is not transparent. -/
  | top {id : LayerId} {lower : List LayerId} {action : Action}
      (stands : map.action? id key = some action) (speaks : action ≠ .transparent) :
      Means map key (id :: lower) action
  /-- The highest layer is transparent for the key, or too short. -/
  | through {id : LayerId} {lower : List LayerId} {action : Action}
      (silent : ∀ entry, map.action? id key = some entry → entry = .transparent)
      (means : Means map key lower action) : Means map key (id :: lower) action
  /-- No layer above the base layer decides. -/
  | base {action : Action} (stands : map.action? baseLayer key = some action) : Means map key [] action
  /-- The base layer is too short as well. -/
  | nothing (short : map.action? baseLayer key = none) : Means map key [] .noOp

/-- A layer decides about a key when it has an action for it that is not transparent. -/
theorem decides_iff {id : LayerId} : map.decides key id = true ↔
    ∃ action, map.action? id key = some action ∧ action ≠ .transparent := by
  simp [decides, Option.any_eq_true]

/-- A key has one meaning at most. -/
theorem Means.unique {ids : List LayerId} {action other : Action} (means : map.Means key ids action)
    (also : map.Means key ids other) : action = other := by
  induction means with
  | top stands speaks =>
    cases also with
    | top stands' => exact Option.some.inj (stands.symm.trans stands')
    | through silent => exact absurd (silent _ stands) speaks
  | through silent _ ih =>
    cases also with
    | top stands speaks => exact absurd (silent _ stands) speaks
    | through _ means => exact ih means
  | base stands =>
    cases also with
    | base stands' => exact Option.some.inj (stands.symm.trans stands')
    | nothing short => rw [stands] at short; cases short
  | nothing short =>
    cases also with
    | base stands => rw [short] at stands; cases stands
    | nothing => rfl

/-- The target of an action that stands in the keymap is one of its layers. -/
theorem target_lt {layer target : LayerId} {action : Action} (stands : map.action? layer key = some action)
    (targets : action.layer? = some target) : target.toNat < map.size := by
  obtain ⟨found, listed, entry⟩ := Option.bind_eq_some_iff.1 stands
  exact map.wellFormed.targets_exist found (List.mem_of_getElem? listed) action
    (List.mem_of_getElem? entry) target targets

end Keymap

namespace LayerStack

variable {s t : LayerStack} {map : Keymap} {key : Key}

/-- The highest entry decides if it can, else the others do. -/
theorem resolve_cons (entry : LayerEntry) (rest : List LayerEntry) :
    resolve ⟨entry :: rest⟩ map key =
      if map.decides key entry.id then (map.action? entry.id key).getD .noOp
      else resolve ⟨rest⟩ map key := by
  unfold resolve Keymap.decides
  cases found : map.action? entry.id key with
  | none => simp [found]
  | some action =>
    by_cases clear : action = .transparent
    · simp [found, clear]
    · simp [found, clear]

/-- Every key has the meaning to which it is resolved. -/
theorem means_resolve (s : LayerStack) (map : Keymap) (key : Key) :
    map.Means key (s.entries.map (·.id)) (s.resolve map key) := by
  obtain ⟨entries⟩ := s
  induction entries with
  | nil =>
    show map.Means key [] (map.base key)
    unfold Keymap.base
    cases found : map.action? baseLayer key with
    | some action => exact .base found
    | none => exact .nothing found
  | cons entry rest ih =>
    rw [resolve_cons]
    split
    · rename_i speaks
      obtain ⟨action, stands, opens⟩ := Keymap.decides_iff.1 speaks
      rw [stands]
      exact .top stands opens
    · rename_i silent
      refine .through (fun action stands => ?_) ih
      exact Decidable.byContradiction fun speaks => silent (Keymap.decides_iff.2 ⟨action, stands, speaks⟩)

/-- A key is resolved to an action exactly if it means that action. -/
theorem resolve_eq_iff {action : Action} :
    s.resolve map key = action ↔ map.Means key (s.entries.map (·.id)) action :=
  ⟨fun same => same ▸ means_resolve s map key, fun means => (means_resolve s map key).unique means⟩

/-- No key is ever resolved to what the layer below says. -/
theorem resolve_ne_transparent (s : LayerStack) (map : Keymap) (key : Key) :
    s.resolve map key ≠ .transparent := by
  obtain ⟨entries⟩ := s
  induction entries with
  | nil => exact map.base_ne_transparent key
  | cons entry rest ih =>
    rw [resolve_cons]
    split
    · rename_i speaks
      obtain ⟨action, stands, opens⟩ := Keymap.decides_iff.1 speaks
      rw [stands]
      exact opens
    · exact ih

/-- Only the layers that decide matter. -/
theorem resolve_filter (s : LayerStack) (map : Keymap) (key : Key) :
    resolve ⟨s.entries.filter fun entry => map.decides key entry.id⟩ map key = s.resolve map key := by
  obtain ⟨entries⟩ := s
  induction entries with
  | nil => rfl
  | cons entry rest ih =>
    rw [resolve_cons, List.filter_cons]
    split
    · rename_i speaks
      rw [resolve_cons, if_pos speaks]
    · exact ih

/-- All layers that are on are layers of the keymap. -/
def Within (map : Keymap) (s : LayerStack) : Prop := ∀ entry ∈ s.entries, entry.id.toNat < map.size

/-- In the empty stack there is no layer that the keymap lacks. -/
theorem within_empty (map : Keymap) : empty.Within map := by
  intro entry listed
  cases listed

/-- A layer of the keymap that goes on leaves the stack within it. -/
theorem Within.activate (within : s.Within map) {id : LayerId} (known : id.toNat < map.size)
    (kind : Activation) : (s.activate id kind).1.Within map := by
  intro entry listed
  rcases mem_activate listed with earlier | rfl
  · exact within entry earlier
  · exact known

/-- A layer that goes off leaves the stack within the keymap. -/
theorem Within.deactivate (within : s.Within map) (id : LayerId) (kind : Activation) :
    (s.deactivate id kind).1.Within map :=
  fun entry listed => within entry (mem_deactivate.1 listed).1

end LayerStack

namespace Holdings

variable {map : Keymap} {h : Holdings} {lm : LayerModifiers}

/-- Turning on a layer of the keymap leaves what is on within it. -/
theorem within_activateLayer (within : h.layers.Within map) {id : LayerId} (known : id.toNat < map.size)
    (kind : Activation) : (h.activateLayer lm id kind).layers.Within map := by
  rw [layers_activateLayer]
  exact within.activate known kind

/-- Turning off a layer leaves what is on within the keymap. -/
theorem within_deactivateLayer (within : h.layers.Within map) (id : LayerId) (kind : Activation) :
    (h.deactivateLayer lm id kind).layers.Within map := by
  rw [layers_deactivateLayer]
  exact within.deactivate id kind

/-- Toggling a layer of the keymap leaves what is on within it. -/
theorem within_toggleLayer (within : h.layers.Within map) {id : LayerId} (known : id.toNat < map.size) :
    (h.toggleLayer lm id).layers.Within map := by
  unfold toggleLayer
  split
  · exact within_deactivateLayer within id .toggled
  · exact within_activateLayer within known .toggled

/-- Revoking a one-shot leaves what is on within the keymap. -/
theorem within_revoke (within : h.layers.Within map) (trigger : Action) :
    (h.revoke lm trigger).layers.Within map := by
  cases trigger with
  | oneShotModifier set =>
    show (h.applyOneShotModifiers set .revoke).layers.Within map
    rw [layers_applyOneShotModifiers]
    exact within
  | oneShotLayer id => exact within_deactivateLayer within id .oneShot
  | _ => exact within

end Holdings

namespace OneShots

variable {map : Keymap} {h : Holdings} {lm : LayerModifiers} (shots : OneShots)

/-- A machine switches on only the layer of its trigger. -/
theorem within_step (within : h.layers.Within map) {trigger : Action}
    (known : ∀ target, trigger.layer? = some target → target.toNat < map.size)
    (f : OneShot → OneShot × Option OneShotChange) :
    (shots.step h lm trigger f).2.layers.Within map := by
  unfold step
  cases trigger with
  | oneShotModifier set =>
    dsimp only
    rw [Holdings.layers_answer]
    exact within
  | oneShotLayer id =>
    dsimp only
    rcases (f (shots.layers.get id)).2 with - | - | -
    · exact within
    · exact Holdings.within_activateLayer within (known id rfl) .oneShot
    · exact Holdings.within_deactivateLayer within id .oneShot
  | _ => exact within

/-- Machines that wind down switch no layer on. -/
theorem within_sweep (within : h.layers.Within map)
    {each : Action → OneShot → OneShot × Option OneShotChange}
    (winds : ∀ trigger, OneShot.WindsDown (each trigger)) :
    (shots.sweep h lm each).2.layers.Within map := by
  rw [sweep_holdings winds]
  refine List.foldlRecOn (motive := fun h : Holdings => h.layers.Within map) _ _ within ?_
  exact fun _ within trigger _ => Holdings.within_revoke within trigger

end OneShots

namespace Engine

variable {p : Profile} {s : Engine}

/-- What a key is resolved to has one of the layers of the keymap as its target. -/
theorem target_of_resolve {layers : LayerStack} {key : Key} {target : LayerId}
    (targets : (layers.resolve p.keymap key).layer? = some target) : target.toNat < p.keymap.size := by
  have something : layers.resolve p.keymap key ≠ .noOp := by
    intro none
    rw [none] at targets
    cases targets
  obtain ⟨layer, stands⟩ := LayerStack.exists_of_resolve rfl something
  exact Keymap.target_lt stands targets

/-- So has the action of every key that is down. -/
theorem Sourced.target (sourced : s.Sourced p) {key : Key} {entry : ActiveKey} {target : LayerId}
    (down : s.active.find? key = some entry) (targets : entry.action.layer? = some target) :
    target.toNat < p.keymap.size := by
  obtain ⟨layers, means⟩ := sourced key entry down
  exact target_of_resolve (means ▸ targets)

/-- Typing strokes that count for the one-shots leaves what is on within the keymap. -/
theorem within_types (within : s.holdings.layers.Within p.keymap) (action : Action) :
    ((s.mapHoldings (·.types action)).consume p action).holdings.layers.Within p.keymap := by
  have typed : (s.holdings.types action).layers.Within p.keymap := by
    rw [(Holdings.Alike.types action).layers]
    exact within
  show (s.oneShots.consume (s.holdings.types action) p.settings p.layerModifiers action).2.layers.Within _
  exact OneShots.within_sweep s.oneShots typed fun trigger => .uses p.settings action trigger

/-- The press of an action switches on only layers of the keymap. -/
theorem within_perform (within : s.holdings.layers.Within p.keymap) (event : KeyEvent) {action : Action}
    (known : ∀ target, action.layer? = some target → target.toNat < p.keymap.size) :
    (s.perform p event action).2.holdings.layers.Within p.keymap := by
  have spec := effect_spec p event action s
  generalize s.perform p event action = result at spec ⊢
  cases spec with
  | types => exact within_types within action
  | triggers =>
    show (s.oneShots.press s.holdings p.settings p.layerModifiers action event.time).2.layers.Within _
    exact OneShots.within_step s.oneShots within known _
  | holds stroke =>
    show (s.holdings.holdModifiers _).layers.Within _
    rw [(Holdings.Alike.holdModifiers _).layers]
    exact within
  | takes id => exact Holdings.within_activateLayer within (known id rfl) .held
  | toggles id => exact Holdings.within_toggleLayer within (known id rfl)
  | cancels =>
    show (s.holdings.releaseEverything p.layerModifiers).layers.Within _
    rw [Holdings.layers_releaseEverything]
    exact LayerStack.within_empty _
  | waits => exact within

/-- So does what undoes the press. -/
theorem within_undo (within : s.holdings.layers.Within p.keymap) (event : KeyEvent) {entry : ActiveKey}
    (known : ∀ target, entry.action.layer? = some target → target.toNat < p.keymap.size) :
    (s.undo p event entry).holdings.layers.Within p.keymap := by
  have spec := undone_spec p event entry s
  generalize s.undo p event entry = next at spec ⊢
  cases spec with
  | lets id => exact Holdings.within_deactivateLayer within id .held
  | lifts =>
    show (s.oneShots.release s.holdings p.settings p.layerModifiers entry.action event.time).2.layers.Within _
    exact OneShots.within_step s.oneShots within known _
  | frees _ alike =>
    rw [alike.layers]
    exact within

/-- So does a waiting key that is settled. -/
theorem within_settled (within : s.holdings.layers.Within p.keymap) (decision : Decision)
    {head : PendingKey}
    (known : ∀ target, head.action.layer? = some target → target.toNat < p.keymap.size) :
    (s.settled p decision head).holdings.layers.Within p.keymap := by
  have spec := settlement_spec p decision head s
  generalize s.settled p decision head = next at spec ⊢
  cases spec with
  | types =>
    have noted : (s.marked .tap head).holdings.layers.Within p.keymap := within
    exact within_types noted head.action
  | takes id held =>
    have noted : (s.marked .hold head).holdings.layers.Within p.keymap := within
    refine Holdings.within_activateLayer noted (known id ?_) .held
    cases action : head.action with
    | layerTap layer tap =>
      rw [action] at held
      exact held
    | _ =>
      rw [action] at held
      cases held
  | spares _ _ alike =>
    rw [alike.layers]
    exact within

/-- Acting on an event leaves what is on within the keymap, from which all actions come. -/
theorem within_dispatch (within : s.holdings.layers.Within p.keymap) (sourced : s.Sourced p)
    (event : KeyEvent) : (s.dispatch p event).holdings.layers.Within p.keymap := by
  unfold dispatch
  dsimp only
  split
  · cases up : (s.announce (.dispatched event)).active.contains event.key with
    | true =>
      rw [press_of_down up]
      exact within
    | false =>
      rw [press_of_up up]
      exact within_perform (s := (s.announce (.dispatched event)).readied event) within event fun _ =>
        target_of_resolve
  · cases found : (s.announce (.dispatched event)).active.find? event.key with
    | none =>
      rw [release_of_up found]
      exact within
    | some entry =>
      rw [release_of_down found]
      exact within_undo (s := { s.announce (.dispatched event) with
        active := (s.announce (.dispatched event)).active.remove event.key }) within event fun _ =>
          sourced.target found

/-- Nothing ever switches on a layer that is not in the keymap. -/
theorem within_lasting (p : Profile) : Lasting p fun s =>
    s.Consistent ∧ s.Sourced p ∧ s.holdings.layers.Within p.keymap where
  dispatch s event acts holds :=
    ⟨(consistent_lasting p).dispatch s event acts holds.1,
      (sourced_lasting p).dispatch s event acts holds.2.1, within_dispatch holds.2.2 holds.2.1 event⟩
  settled s decision head waiting holds :=
    ⟨(consistent_lasting p).settled s decision head waiting holds.1,
      (sourced_lasting p).settled s decision head waiting holds.2.1,
      within_settled holds.2.2 decision fun _ => holds.2.1.target (holds.1.down head waiting)⟩
  keptBack s head event waiting other holds :=
    ⟨(consistent_lasting p).keptBack s head event waiting other holds.1, holds.2⟩
  warn s warning holds := ⟨(consistent_lasting p).warn s warning holds.1, holds.2⟩
  elapse s now holds :=
    ⟨(consistent_lasting p).elapse s now holds.1, holds.2.1,
      OneShots.within_sweep s.oneShots holds.2.2 fun _ => .tick p.settings now⟩
  cancel s holds :=
    ⟨(consistent_lasting p).cancel s holds.1, holds.2.1.cancel, by
      show (s.holdings.releaseEverything p.layerModifiers).layers.Within _
      rw [Holdings.layers_releaseEverything]
      exact LayerStack.within_empty _⟩

/-- Every key always has a meaning, and layers that do not decide what a key means make no difference to
it. After every run of calls, the layers on the stack are layers of the keymap above the base layer; every
key is resolved to what it means under them, which is never what the layer below says; and stacks on which
the same layers decide, in the same order, resolve a key alike, whatever other layers they have in between. -/
theorem resolves_as_meant (p : Profile) (calls : List Call) :
    (∀ entry ∈ (after p calls).holdings.layers.entries,
      1 ≤ entry.id.toNat ∧ entry.id.toNat ≤ p.keymap.size - 1) ∧
    (∀ key, (after p calls).resolve p key ≠ .transparent ∧
      ∀ action, (after p calls).resolve p key = action ↔
        p.keymap.Means key ((after p calls).holdings.layers.entries.map (·.id)) action) ∧
    ∀ key (s t : LayerStack),
      s.entries.filter (fun entry => p.keymap.decides key entry.id) =
        t.entries.filter (fun entry => p.keymap.decides key entry.id) →
      s.resolve p.keymap key = t.resolve p.keymap key := by
  refine ⟨fun entry listed => ?_, fun key => ⟨?_, fun action => ?_⟩, fun key s t same => ?_⟩
  · have within := ((within_lasting p).after
      ⟨consistent_start, sourced_start, LayerStack.within_empty _⟩ calls).2.2 entry listed
    have above := ((accounted_lasting p).after
      ⟨consistent_start, .start False p⟩ calls).2.meets.sound.base_absent entry listed
    have positive : entry.id.toNat ≠ 0 := fun zero => above (UInt8.toNat_inj.1 zero)
    omega
  · exact LayerStack.resolve_ne_transparent _ _ _
  · exact LayerStack.resolve_eq_iff
  · rw [← LayerStack.resolve_filter s, same, LayerStack.resolve_filter]

set_option maxRecDepth 10000 in
/-- Each of the two layers replaces one key, and for the last key it does not matter where in the stack the
layer is that is too short for it, nor whether it is there at all. -/
theorem resolves_as_meant_ragged :
    (after .ragged Call.bothLayers).holdings.layers.entries = [⟨2, .held⟩, ⟨1, .held⟩] ∧
    Profile.ragged.keymap.Means ⟨2⟩ [2, 1] (.plain (.ofCode .d)) ∧
    Profile.ragged.keymap.Means ⟨3⟩ [2, 1] (.plain (.ofCode .c)) ∧
    LayerStack.resolve ⟨[⟨2, .held⟩, ⟨1, .held⟩]⟩ Profile.ragged.keymap ⟨3⟩ =
      LayerStack.resolve ⟨[⟨1, .held⟩, ⟨2, .held⟩, ⟨2, .toggled⟩]⟩ Profile.ragged.keymap ⟨3⟩ ∧
    LayerStack.resolve ⟨[⟨2, .held⟩, ⟨1, .held⟩]⟩ Profile.ragged.keymap ⟨3⟩ =
      LayerStack.resolve ⟨[⟨1, .held⟩]⟩ Profile.ragged.keymap ⟨3⟩ := by
  obtain ⟨-, meant, alike⟩ := resolves_as_meant .ragged Call.bothLayers
  have entries : (after .ragged Call.bothLayers).holdings.layers.entries =
      [⟨2, .held⟩, ⟨1, .held⟩] := by cbv
  have third : (after .ragged Call.bothLayers).resolve .ragged ⟨2⟩ = .plain (.ofCode .d) := by cbv
  have last : (after .ragged Call.bothLayers).resolve .ragged ⟨3⟩ = .plain (.ofCode .c) := by cbv
  refine ⟨entries, ?_, ?_, alike ⟨3⟩ _ _ (by decide), alike ⟨3⟩ _ _ (by decide)⟩
  · have means := ((meant ⟨2⟩).2 _).1 third
    rw [entries] at means
    exact means
  · have means := ((meant ⟨3⟩).2 _).1 last
    rw [entries] at means
    exact means

end Engine

end KeyEngine
