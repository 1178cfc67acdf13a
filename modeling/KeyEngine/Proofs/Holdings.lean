import KeyEngine.OneShots

/-!
# What each operation changes

An operation on what is on touches its modifiers, its layers or its register, and tells the host what
follows. These lemmas say for every operation which of the parts it changes and how, so that later proofs
need not unfold it.
-/

namespace KeyEngine

/-- Whether a layer holds a modifier while it is on. -/
def LayerModifiers.holds (lm : LayerModifiers) (id : LayerId) (m : Modifier) : Bool :=
  (lm.find? id).any (·.contains m)

namespace Holdings

/-- A note in the journal does not change the modifiers. -/
@[simp] theorem modifiers_announce (h : Holdings) (signal : Signal) :
    (h.announce signal).modifiers = h.modifiers := rfl

/-- A note in the journal does not change the layers. -/
@[simp] theorem layers_announce (h : Holdings) (signal : Signal) :
    (h.announce signal).layers = h.layers := rfl

/-- A note in the journal does not change the register. -/
@[simp] theorem register_announce (h : Holdings) (signal : Signal) :
    (h.announce signal).register = h.register := rfl

/-- A note reaches the host after everything before it, if it reaches the host at all. -/
@[simp] theorem stream_announce (h : Holdings) (signal : Signal) :
    (h.announce signal).journal.stream = h.journal.stream ++ signal.host?.toList :=
  Journal.stream_push _ _

/-- A change of the modifiers is made to them. -/
@[simp] theorem modifiers_mapModifiers (h : Holdings) (f : ModifierState → ModifierState) :
    (h.mapModifiers f).modifiers = f h.modifiers := rfl

/-- The layers do not depend on the modifiers. -/
@[simp] theorem layers_mapModifiers (h : Holdings) (f : ModifierState → ModifierState) :
    (h.mapModifiers f).layers = h.layers := rfl

/-- The register does not depend on the modifiers. -/
@[simp] theorem register_mapModifiers (h : Holdings) (f : ModifierState → ModifierState) :
    (h.mapModifiers f).register = h.register := rfl

/-- Telling the host about the modifiers does not change them. -/
@[simp] theorem modifiers_sync (h : Holdings) : h.sync.modifiers = h.modifiers := by
  unfold sync
  split <;> rfl

/-- Telling the host about the modifiers does not change the layers. -/
@[simp] theorem layers_sync (h : Holdings) : h.sync.layers = h.layers := by
  unfold sync
  split <;> rfl

/-- Telling the host about the modifiers does not change the register. -/
@[simp] theorem register_sync (h : Holdings) : h.sync.register = h.register := by
  unfold sync
  split <;> rfl

/-- Telling the host several things adds them to the journal and changes nothing else. -/
theorem foldl_tell (events : List HostEvent) (h : Holdings) :
    events.foldl tell h = { h with journal := h.journal ++ (events.map Signal.host).toArray } := by
  induction events generalizing h with
  | nil => simp
  | cons event rest ih =>
    rw [List.foldl_cons, ih]
    simp [tell, announce]

section
variable (h : Holdings) (f : Register → Register × List HostEvent)

/-- The modifiers do not depend on the register. -/
@[simp] theorem modifiers_mapRegister : (h.mapRegister f).modifiers = h.modifiers := by
  simp [mapRegister, foldl_tell]

/-- The layers do not depend on the register. -/
@[simp] theorem layers_mapRegister : (h.mapRegister f).layers = h.layers := by
  simp [mapRegister, foldl_tell]

/-- A change of the register is made to it. -/
@[simp] theorem register_mapRegister : (h.mapRegister f).register = (f h.register).1 := by
  simp [mapRegister, foldl_tell]

/-- A change of the register leaves the modifiers the host was told of. -/
@[simp] theorem sent_mapRegister : (h.mapRegister f).sent = h.sent := by
  simp [mapRegister, foldl_tell]

/-- The host is told what a change of the register gives out. -/
@[simp] theorem stream_mapRegister :
    (h.mapRegister f).journal.stream = h.journal.stream ++ (f h.register).2 := by
  simp only [mapRegister, foldl_tell, Journal.stream, Array.toList_append, List.filterMap_append,
    List.filterMap_map, List.append_cancel_left_eq]
  exact List.filterMap_some

end

section
variable (h : Holdings) (stroke : Keystroke) (f : Register → KeyCode → Register × List HostEvent)

/-- What is done to the code of a stroke leaves the modifiers. -/
@[simp] theorem modifiers_mapCode : (h.mapCode stroke f).modifiers = h.modifiers := by
  unfold mapCode
  split <;> simp

/-- What is done to the code of a stroke leaves the layers. -/
@[simp] theorem layers_mapCode : (h.mapCode stroke f).layers = h.layers := by
  unfold mapCode
  split <;> simp

/-- What is done to the code of a stroke leaves the modifiers the host was told of. -/
@[simp] theorem sent_mapCode : (h.mapCode stroke f).sent = h.sent := by
  unfold mapCode
  split <;> simp

/-- The code of a stroke is entered in the register unless it is that of a modifier key. -/
theorem register_mapCode : (h.mapCode stroke f).register =
    if stroke.code.isModifier then h.register else (f h.register stroke.code).1 := by
  unfold mapCode
  split <;> simp_all

end

section
variable (h : Holdings) (stroke : Keystroke)

/-- The modifiers of a stroke are attached with it. -/
@[simp] theorem modifiers_attach :
    (h.attach stroke).modifiers = h.modifiers.attach stroke.allModifiers := by simp [attach]

/-- Attaching the modifiers of a stroke leaves the layers. -/
@[simp] theorem layers_attach : (h.attach stroke).layers = h.layers := by simp [attach]

/-- Attaching the modifiers of a stroke leaves the register. -/
@[simp] theorem register_attach : (h.attach stroke).register = h.register := by simp [attach]

/-- The modifiers of a stroke are detached with it. -/
@[simp] theorem modifiers_detach :
    (h.detach stroke).modifiers = h.modifiers.detach stroke.allModifiers := by simp [detach]

/-- Detaching the modifiers of a stroke leaves the layers. -/
@[simp] theorem layers_detach : (h.detach stroke).layers = h.layers := by simp [detach]

/-- Detaching the modifiers of a stroke leaves the register. -/
@[simp] theorem register_detach : (h.detach stroke).register = h.register := by simp [detach]

end

section
variable (h : Holdings) (lm : LayerModifiers) (id : LayerId) (active : Bool)

/-- The modifiers of a layer come and go without the layers changing. -/
@[simp] theorem layers_mapLayerModifiers :
    (h.mapLayerModifiers lm id active).layers = h.layers := by
  unfold mapLayerModifiers
  split <;> rfl

/-- The modifiers of a layer come and go without the register changing. -/
@[simp] theorem register_mapLayerModifiers :
    (h.mapLayerModifiers lm id active).register = h.register := by
  unfold mapLayerModifiers
  split <;> rfl

/-- The modifiers of a layer are counted among those that are held. -/
theorem modifiers_mapLayerModifiers : (h.mapLayerModifiers lm id active).modifiers =
    { h.modifiers with held := (h.mapLayerModifiers lm id active).modifiers.held } := by
  unfold mapLayerModifiers
  split
  · rfl
  · cases active <;> rfl

/-- The modifiers that a layer holds are counted up when it goes on and down when it goes off. -/
theorem held_mapLayerModifiers (m : Modifier) :
    (h.mapLayerModifiers lm id active).modifiers.held.count m =
      if lm.holds id m then
        if active then min Tally.limit (h.modifiers.held.count m + 1) else h.modifiers.held.count m - 1
      else h.modifiers.held.count m := by
  unfold mapLayerModifiers LayerModifiers.holds
  cases lm.find? id with
  | none => simp
  | some set => cases active <;> simp [ModifierState.hold, ModifierState.unhold]

/-- A layer that went on or off brings or takes its modifiers. -/
@[simp] theorem modifiers_layerChanged :
    (h.layerChanged lm id active).modifiers = (h.mapLayerModifiers lm id active).modifiers := by
  unfold layerChanged mapLayerModifiers
  cases lm.find? id <;> simp [tell]

/-- What follows from a layer going on or off leaves the stack as it is. -/
@[simp] theorem layers_layerChanged : (h.layerChanged lm id active).layers = h.layers := by
  unfold layerChanged
  simp [tell]

/-- What follows from a layer going on or off leaves the register as it is. -/
@[simp] theorem register_layerChanged :
    (h.layerChanged lm id active).register = h.register := by
  unfold layerChanged
  simp [tell]

end

/-- Turning a layer on enters it on the stack. -/
theorem layers_activateLayer (h : Holdings) (lm : LayerModifiers) (id : LayerId) (kind : Activation) :
    (h.activateLayer lm id kind).layers = (h.layers.activate id kind).1 := by
  unfold activateLayer
  split <;> simp_all [warn]

/-- Turning a layer off takes its entry from the stack. -/
@[simp] theorem layers_deactivateLayer (h : Holdings) (lm : LayerModifiers) (id : LayerId)
    (kind : Activation) :
    (h.deactivateLayer lm id kind).layers = (h.layers.deactivate id kind).1 := by
  unfold deactivateLayer
  split <;> simp_all

/-- Switching a layer on or off changes no modifiers but those that are held. -/
theorem modifiers_activateLayer (h : Holdings) (lm : LayerModifiers) (id : LayerId)
    (kind : Activation) : (h.activateLayer lm id kind).modifiers =
      { h.modifiers with held := (h.activateLayer lm id kind).modifiers.held } := by
  unfold activateLayer
  split
  · rw [modifiers_layerChanged]
    exact modifiers_mapLayerModifiers _ _ _ _
  · rfl
  · rfl

/-- A layer that goes off changes no count of modifiers but that of the held ones. -/
theorem modifiers_deactivateLayer (h : Holdings) (lm : LayerModifiers) (id : LayerId)
    (kind : Activation) : (h.deactivateLayer lm id kind).modifiers =
      { h.modifiers with held := (h.deactivateLayer lm id kind).modifiers.held } := by
  unfold deactivateLayer
  split
  · rw [modifiers_layerChanged]
    exact modifiers_mapLayerModifiers _ _ _ _
  · rfl

/-- A layer that goes on types nothing. -/
theorem register_activateLayer (h : Holdings) (lm : LayerModifiers) (id : LayerId)
    (kind : Activation) : (h.activateLayer lm id kind).register = h.register := by
  unfold activateLayer
  split
  · exact register_layerChanged _ _ _ _
  · rfl
  · rfl

/-- A layer that goes off types nothing. -/
theorem register_deactivateLayer (h : Holdings) (lm : LayerModifiers) (id : LayerId)
    (kind : Activation) : (h.deactivateLayer lm id kind).register = h.register := by
  unfold deactivateLayer
  split
  · exact register_layerChanged _ _ _ _
  · rfl

/-- No layer but the base layer is on once everything is released. -/
@[simp] theorem layers_releaseEverything (h : Holdings) (lm : LayerModifiers) :
    (h.releaseEverything lm).layers = .empty := by
  have kept : ∀ (ids : List LayerId) (h : Holdings),
      (ids.foldl (fun h id => h.layerChanged lm id false) h).layers = h.layers := by
    intro ids
    induction ids with
    | nil => exact fun _ => rfl
    | cons id rest ih => exact fun h => (ih _).trans (layers_layerChanged _ _ _ _)
  simp [releaseEverything, kept]

/-- No modifier is on once everything is released. -/
@[simp] theorem modifiers_releaseEverything (h : Holdings) (lm : LayerModifiers) :
    (h.releaseEverything lm).modifiers = .empty := by
  simp [releaseEverything]

/-- No code is held once everything is released. -/
@[simp] theorem register_releaseEverything (h : Holdings) (lm : LayerModifiers) :
    (h.releaseEverything lm).register = .empty := by
  simp [releaseEverything, Register.releaseAll]

end Holdings

end KeyEngine
