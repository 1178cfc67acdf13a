import KeyEngine.Proofs.Holdings
import KeyEngine.Proofs.Layers
import KeyEngine.Proofs.Operations
import KeyEngine.Proofs.Stream

/-!
# The stream mirrors the keyboard

The host knows the keyboard only from the stream of events. `Mirrored` says that this is enough: the
stream is orderly, and what its views list as on is what is on. Every operation keeps it, and every
operation ends with the host told the current modifiers, so both hold after every call of a run, whatever
keys went down and up and in whatever order.
-/

namespace KeyEngine

namespace Register

/-- The codes that are down are listed once. -/
theorem nodup_registered (r : Register) : r.registered.Nodup := by
  refine List.Nodup.filter _ (List.Nodup.of_map KeyCode.usage ?_)
  exact KeyCode.usages_ascending.imp fun ascending same => absurd (same ▸ ascending) (UInt8.lt_irrefl _)

end Register

namespace Holdings

/-- What the stream says is on is what is on; the layers that count as on are given, since the stack
changes before the host is told. -/
structure Mirrored (h : Holdings) (ids : List LayerId) : Prop where
  /-- Every event of the stream fits those before it. -/
  orderly : HostEvent.Orderly h.journal.stream
  /-- The codes that are down are those that some key presses. -/
  codes : ∀ code, code ∈ HostEvent.pressed h.journal.stream ↔ 0 < h.register.count code
  /-- The layers that were switched on are the given ones. -/
  layers : ∀ id, id ∈ HostEvent.layersOn h.journal.stream ↔ id ∈ ids
  /-- The modifiers named last are those that the host was told last. -/
  told : HostEvent.lastModifiers h.journal.stream = h.sent

namespace Mirrored

variable {h : Holdings} {ids : List LayerId}

/-- A stream that mirrors layers mirrors any list of the same ones. -/
theorem congr {others : List LayerId} (mirrored : h.Mirrored ids)
    (same : ∀ id, id ∈ others ↔ id ∈ ids) : h.Mirrored others :=
  ⟨mirrored.orderly, mirrored.codes, fun id => (mirrored.layers id).trans (same id).symm,
    mirrored.told⟩

/-- A note in the journal is not told to the host. -/
theorem announce (mirrored : h.Mirrored ids) {signal : Signal} (silent : signal.host? = none) :
    (h.announce signal).Mirrored ids := by
  have same : (h.announce signal).journal.stream = h.journal.stream := by simp [silent]
  constructor
  · rw [same]
    exact mirrored.orderly
  · simpa only [same, register_announce] using mirrored.codes
  · simpa only [same] using mirrored.layers
  · rw [same]
    exact mirrored.told

/-- A change of the modifiers leaves the stream a mirror until the host is told of it. -/
theorem mapModifiers (mirrored : h.Mirrored ids) (f : ModifierState → ModifierState) :
    (h.mapModifiers f).Mirrored ids :=
  ⟨mirrored.orderly, mirrored.codes, mirrored.layers, mirrored.told⟩

/-- The host is told the modifiers only when they changed. -/
theorem sync (mirrored : h.Mirrored ids) : h.sync.Mirrored ids := by
  unfold Holdings.sync
  split
  · exact mirrored
  · rename_i changed
    have told : ({ h with sent := h.effective }.tell (.modifiers h.effective)).journal.stream =
        h.journal.stream ++ [.modifiers h.effective] := stream_announce _ _
    have fits : HostEvent.Fits h.journal.stream (.modifiers h.effective) := by
      show HostEvent.lastModifiers h.journal.stream ≠ h.effective
      rw [mirrored.told]
      exact Ne.symm changed
    constructor
    · rw [told]
      exact mirrored.orderly.concat fits
    · intro code
      rw [told, mirrored.orderly.mem_pressed_concat]
      simpa [tell] using mirrored.codes code
    · intro id
      rw [told, mirrored.orderly.mem_layersOn_concat]
      simpa using mirrored.layers id
    · rw [told, HostEvent.lastModifiers_concat]
      rfl

/-- Attaching the modifiers of a stroke leaves the stream a mirror. -/
theorem attach (mirrored : h.Mirrored ids) (stroke : Keystroke) : (h.attach stroke).Mirrored ids :=
  (mirrored.mapModifiers _).sync

/-- Detaching the modifiers of a stroke leaves the stream a mirror. -/
theorem detach (mirrored : h.Mirrored ids) (stroke : Keystroke) : (h.detach stroke).Mirrored ids :=
  (mirrored.mapModifiers _).sync

/-- A change of the register keeps the mirror if what the host is told of it is orderly and leaves down
exactly the codes that are pressed afterwards. -/
theorem mapRegister (mirrored : h.Mirrored ids) {f : Register → Register × List HostEvent}
    (edges : ∀ event ∈ (f h.register).2, ∃ code, event = .press code ∨ event = .release code)
    (orderly : HostEvent.Orderly (h.journal.stream ++ (f h.register).2))
    (codes : ∀ code, code ∈ HostEvent.pressed (h.journal.stream ++ (f h.register).2) ↔
      0 < (f h.register).1.count code) : (h.mapRegister f).Mirrored ids := by
  have keeps {β : Type} (view : β → HostEvent → β) (start : β)
      (blind : ∀ on code, view on (.press code) = on ∧ view on (.release code) = on) :
      (f h.register).2.foldl view start = start := by
    refine List.foldlRecOn _ view (motive := (· = start)) rfl fun on same event member => ?_
    obtain ⟨code, rfl | rfl⟩ := edges event member
    · exact (blind on code).1.trans same
    · exact (blind on code).2.trans same
  constructor
  · rw [stream_mapRegister]
    exact orderly
  · intro code
    rw [stream_mapRegister, register_mapRegister]
    exact codes code
  · intro id
    rw [stream_mapRegister, HostEvent.layersOn, List.foldl_append, keeps _ _ fun _ _ => ⟨rfl, rfl⟩]
    exact mirrored.layers id
  · rw [stream_mapRegister, HostEvent.lastModifiers, List.foldl_append,
      keeps _ _ fun _ _ => ⟨rfl, rfl⟩, sent_mapRegister]
    exact mirrored.told

/-- The operations of the register on one code keep the mirror, if the code is no modifier key. -/
theorem mapCode (mirrored : h.Mirrored ids) (stroke : Keystroke)
    {f : Register → KeyCode → Register × List HostEvent}
    (changed : stroke.code.isModifier = false →
      (h.mapRegister (f · stroke.code)).Mirrored ids) : (h.mapCode stroke f).Mirrored ids := by
  unfold Holdings.mapCode
  split
  · exact mirrored
  · rename_i plain
    exact changed (by simpa using plain)

/-- A code is registered exactly when the stream says that it is down. -/
theorem isRegistered_iff (mirrored : h.Mirrored ids) (code : KeyCode) :
    h.register.isRegistered code = true ↔ code ∈ HostEvent.pressed h.journal.stream := by
  rw [mirrored.codes]
  simp [Register.isRegistered]

/-- A code that one more key presses is down. -/
theorem raised (r : Register) (code : KeyCode) :
    0 < (r.set code (min Register.limit (r.count code + 1))).count code := by
  rw [Register.count_set, if_pos rfl]
  unfold Register.limit
  omega

/-- A code that is pressed is mirrored. -/
theorem press (mirrored : h.Mirrored ids) {code : KeyCode} (plain : code.isModifier = false) :
    (h.mapRegister (·.press code)).Mirrored ids := by
  by_cases registered : h.register.isRegistered code = true
  · have down := (mirrored.isRegistered_iff code).1 registered
    refine mirrored.mapRegister ?_ ?_ fun other => ?_
    · simp [Register.press, registered]
    · simpa [Register.press, registered] using mirrored.orderly
    · by_cases same : code = other
      · subst same
        exact iff_of_true (by simpa [Register.press, registered] using down) (raised h.register code)
      · simpa [Register.press, registered, same] using mirrored.codes other
  · have up := mt (mirrored.isRegistered_iff code).2 registered
    obtain ⟨orderly, view⟩ := mirrored.orderly.press plain up
    refine mirrored.mapRegister ?_ ?_ fun other => ?_
    · simp [Register.press, registered]
    · simpa [Register.press, registered] using orderly
    · by_cases same : code = other
      · subst same
        exact iff_of_true (by simp [Register.press, registered, view]) (raised h.register code)
      · simpa [Register.press, registered, same, view, Ne.symm same] using mirrored.codes other

/-- A code that is released is mirrored. -/
theorem release (mirrored : h.Mirrored ids) (code : KeyCode) :
    (h.mapRegister (·.release code)).Mirrored ids := by
  by_cases last : h.register.count code = 1
  · have down : code ∈ HostEvent.pressed h.journal.stream := by
      rw [mirrored.codes, last]
      exact Nat.one_pos
    obtain ⟨orderly, view⟩ := mirrored.orderly.release down
    refine mirrored.mapRegister ?_ ?_ fun other => ?_
    · simp [Register.release, last]
    · simpa [Register.release, last] using orderly
    · by_cases same : code = other
      · subst same
        simp [Register.release, last, view]
      · simpa [Register.release, last, same, view, Ne.symm same] using mirrored.codes other
  · refine mirrored.mapRegister ?_ ?_ fun other => ?_
    · simp [Register.release, last]
    · simpa [Register.release, last] using mirrored.orderly
    · simp only [Register.release, last, if_false, List.append_nil, Register.count_set,
        mirrored.codes]
      split
      · rename_i same
        subst same
        omega
      · rfl

/-- A code that is tapped is mirrored, whether it was down or not. -/
theorem tap (mirrored : h.Mirrored ids) {code : KeyCode} (plain : code.isModifier = false) :
    (h.mapRegister (·.tap code)).Mirrored ids := by
  by_cases registered : h.register.isRegistered code = true
  · obtain ⟨orderly, view⟩ :=
      mirrored.orderly.repress plain ((mirrored.isRegistered_iff code).1 registered)
    refine mirrored.mapRegister ?_ ?_ fun other => ?_
    · simp [Register.tap, registered]
    · simpa [Register.tap, registered] using orderly
    · simpa [Register.tap, registered, view] using mirrored.codes other
  · obtain ⟨orderly, view⟩ :=
      mirrored.orderly.tap plain (mt (mirrored.isRegistered_iff code).2 registered)
    refine mirrored.mapRegister ?_ ?_ fun other => ?_
    · simp [Register.tap, registered]
    · simpa [Register.tap, registered] using orderly
    · simpa [Register.tap, registered, view] using mirrored.codes other

/-- A code that is typed anew is mirrored. -/
theorem retype (mirrored : h.Mirrored ids) {code : KeyCode} (plain : code.isModifier = false) :
    (h.mapRegister (·.retype code)).Mirrored ids := by
  by_cases registered : h.register.isRegistered code = true
  · have down := (mirrored.isRegistered_iff code).1 registered
    obtain ⟨orderly, view⟩ := mirrored.orderly.repress plain down
    refine mirrored.mapRegister ?_ ?_ fun other => ?_
    · simp [Register.retype, registered]
    · simpa [Register.retype, registered] using orderly
    · by_cases same : code = other
      · subst same
        exact iff_of_true (by simp [Register.retype, registered, view, down]) (raised h.register code)
      · simpa [Register.retype, registered, same, view] using mirrored.codes other
  · obtain ⟨orderly, view⟩ :=
      mirrored.orderly.press plain (mt (mirrored.isRegistered_iff code).2 registered)
    refine mirrored.mapRegister ?_ ?_ fun other => ?_
    · simp [Register.retype, registered]
    · simpa [Register.retype, registered] using orderly
    · by_cases same : code = other
      · subst same
        exact iff_of_true (by simp [Register.retype, registered, view]) (raised h.register code)
      · simpa [Register.retype, registered, same, view, Ne.symm same] using mirrored.codes other

/-- The release of all codes is mirrored. -/
theorem releaseAll (mirrored : h.Mirrored ids) : (h.mapRegister Register.releaseAll).Mirrored ids := by
  have down : ∀ code ∈ h.register.registered, code ∈ HostEvent.pressed h.journal.stream :=
    fun code member => (mirrored.codes code).2 (Register.mem_registered.1 member)
  obtain ⟨orderly, view⟩ := mirrored.orderly.releases h.register.nodup_registered down
  refine mirrored.mapRegister ?_ orderly fun other => ?_
  · simp [Register.releaseAll]
  · simp only [Register.releaseAll, view, mirrored.codes, Register.mem_registered,
      Register.count_empty]
    omega

/-- The stack may change before the host is told. -/
theorem withLayers (mirrored : h.Mirrored ids) (stack : LayerStack) :
    { h with layers := stack }.Mirrored ids :=
  ⟨mirrored.orderly, mirrored.codes, mirrored.layers, mirrored.told⟩

/-- The modifiers that a layer brings or takes leave the stream a mirror. -/
theorem mapLayerModifiers (mirrored : h.Mirrored ids) (lm : LayerModifiers) (id : LayerId)
    (active : Bool) : (h.mapLayerModifiers lm id active).Mirrored ids := by
  unfold Holdings.mapLayerModifiers
  split
  · exact mirrored
  · exact mirrored.mapModifiers _

/-- Telling the host of a layer changes only which layers the stream says are on. -/
theorem tellLayer (mirrored : h.Mirrored ids) {id : LayerId} {event : HostEvent}
    (edge : event = .layerOn id ∨ event = .layerOff id)
    (fits : HostEvent.Fits h.journal.stream event) {others : List LayerId}
    (listed : ∀ other, other ∈ HostEvent.layersOn (h.journal.stream ++ [event]) ↔ other ∈ others) :
    (h.tell event).Mirrored others := by
  have told : (h.tell event).journal.stream = h.journal.stream ++ [event] := by
    rcases edge with rfl | rfl <;> exact stream_announce _ _
  constructor
  · rw [told]
    exact mirrored.orderly.concat fits
  · intro code
    rw [told, mirrored.orderly.mem_pressed_concat]
    rcases edge with rfl | rfl
    · simpa [tell] using mirrored.codes code
    · simpa [tell] using mirrored.codes code
  · intro other
    rw [told]
    exact listed other
  · rw [told, HostEvent.lastModifiers_concat]
    rcases edge with rfl | rfl
    · exact mirrored.told
    · exact mirrored.told

/-- Once the host is told of a layer that goes on, the layer counts as on. -/
theorem layerOn (mirrored : h.Mirrored ids) (lm : LayerModifiers) {id : LayerId}
    (above : id ≠ baseLayer) (off : id ∉ ids) {others : List LayerId}
    (listed : ∀ other, other ∈ others ↔ other ∈ ids ∨ other = id) :
    (h.layerChanged lm id true).Mirrored others := by
  have fits : HostEvent.Fits h.journal.stream (.layerOn id) := ⟨above, mt (mirrored.layers id).1 off⟩
  have opened : (h.tell (.layerOn id)).Mirrored others := by
    refine mirrored.tellLayer (.inl rfl) fits fun other => ?_
    rw [mirrored.orderly.mem_layersOn_concat, listed, mirrored.layers]
    simp [eq_comm]
  exact ((opened.mapLayerModifiers lm id true).announce rfl).sync

/-- Once the host is told of a layer that goes off, the layer counts as off. -/
theorem layerOff (mirrored : h.Mirrored ids) (lm : LayerModifiers) {id : LayerId} (on : id ∈ ids)
    {others : List LayerId} (listed : ∀ other, other ∈ others ↔ other ∈ ids ∧ other ≠ id) :
    (h.layerChanged lm id false).Mirrored others := by
  have fits : HostEvent.Fits h.journal.stream (.layerOff id) := (mirrored.layers id).2 on
  have closed : (h.tell (.layerOff id)).Mirrored others := by
    refine mirrored.tellLayer (.inr rfl) fits fun other => ?_
    rw [mirrored.orderly.mem_layersOn_concat, listed, mirrored.layers]
    simp [eq_comm]
  exact ((closed.mapLayerModifiers lm id false).announce rfl).sync

/-- The layers may go off one after the other, until none is on. -/
theorem layersOff (mirrored : h.Mirrored ids) (lm : LayerModifiers) (distinct : ids.Nodup) :
    (ids.foldl (fun h id => h.layerChanged lm id false) h).Mirrored [] := by
  induction ids generalizing h with
  | nil => exact mirrored
  | cons id rest ih =>
    obtain ⟨absent, distinct⟩ := List.nodup_cons.1 distinct
    refine ih (mirrored.layerOff lm (.head _) fun other => ?_) distinct
    rw [List.mem_cons]
    constructor
    · intro member
      exact ⟨.inr member, fun same => absent (same ▸ member)⟩
    · rintro ⟨same | member, differs⟩
      · exact absurd same differs
      · exact member

end Mirrored

/-- The host knows what is on. -/
structure Reported (h : Holdings) : Prop where
  /-- The stream mirrors what is on. -/
  mirrored : h.Mirrored h.layers.activeIds
  /-- The layers were switched on and off properly. -/
  sound : h.layers.Sound
  /-- The modifiers that the host was told are the current ones. -/
  synced : h.sent = h.effective

/-- What is done to the code of a stroke leaves the modifiers that are in force. -/
theorem effective_mapCode (h : Holdings) (stroke : Keystroke)
    (f : Register → KeyCode → Register × List HostEvent) :
    (h.mapCode stroke f).effective = h.effective := by
  simp [effective]

/-- Telling the host the modifiers reports them. -/
theorem synced_sync (h : Holdings) : h.sync.sent = h.sync.effective := by
  rw [sent_sync, effective_sync]

/-- What is done to the code of a stroke leaves the host told of the modifiers in force. -/
theorem synced_mapCode {h : Holdings} (synced : h.sent = h.effective) (stroke : Keystroke)
    (f : Register → KeyCode → Register × List HostEvent) :
    (h.mapCode stroke f).sent = (h.mapCode stroke f).effective := by
  rw [sent_mapCode, effective_mapCode, synced]

namespace Reported

variable {h : Holdings}

/-- Without a change of the layers there is nothing to be said of the stack. -/
theorem of_layers {next : Holdings} (reported : h.Reported) (same : next.layers = h.layers)
    (mirrored : next.Mirrored h.layers.activeIds) (synced : next.sent = next.effective) :
    next.Reported :=
  ⟨same ▸ mirrored, same ▸ reported.sound, synced⟩

/-- The host knows what is on after a stroke was pressed. -/
theorem pressStroke (reported : h.Reported) (stroke : Keystroke) : (h.pressStroke stroke).Reported := by
  have attached := reported.mirrored.attach stroke
  refine reported.of_layers (by simp [Holdings.pressStroke]) ?_ ?_
  · exact attached.mapCode stroke fun plain => attached.press plain
  · exact synced_mapCode (synced_sync _) _ _

/-- The host knows what is on after a stroke was typed anew. -/
theorem retypeStroke (reported : h.Reported) (stroke : Keystroke) :
    (h.retypeStroke stroke).Reported := by
  have attached := reported.mirrored.attach stroke
  refine reported.of_layers (by simp [Holdings.retypeStroke]) ?_ ?_
  · exact attached.mapCode stroke fun plain => attached.retype plain
  · exact synced_mapCode (synced_sync _) _ _

/-- The host knows what is on after a stroke was released. -/
theorem releaseStroke (reported : h.Reported) (stroke : Keystroke) :
    (h.releaseStroke stroke).Reported := by
  refine reported.of_layers (by simp [Holdings.releaseStroke]) ?_ (synced_sync _)
  exact (reported.mirrored.mapCode stroke fun _ => reported.mirrored.release _).detach stroke

/-- The host knows what is on after a stroke was tapped. -/
theorem tapStroke (reported : h.Reported) (stroke : Keystroke) : (h.tapStroke stroke).Reported := by
  have attached := reported.mirrored.attach stroke
  refine reported.of_layers (by simp [Holdings.tapStroke]) ?_ (synced_sync _)
  exact (attached.mapCode stroke fun plain => attached.tap plain).detach stroke

/-- A change of the modifiers alone is reported by telling them. -/
theorem mapModifiers (reported : h.Reported) (f : ModifierState → ModifierState) :
    (h.mapModifiers f).sync.Reported :=
  reported.of_layers (by simp) (reported.mirrored.mapModifiers f).sync (synced_sync _)

/-- The host knows what is on after a manual-shift key went down. -/
theorem pressManualShift (reported : h.Reported) (unshifted shifted : Keystroke) :
    (h.pressManualShift unshifted shifted).Reported := by
  unfold Holdings.pressManualShift
  dsimp only
  split
  · exact reported.pressStroke unshifted
  · have masked := (reported.mirrored.mapModifiers (·.suppress h.shiftOn)).attach shifted
    have pressed := masked.mapCode shifted fun plain => masked.press plain
    exact reported.of_layers (by simp [Holdings.pressStroke]) (pressed.mapModifiers _).sync
      (synced_sync _)

/-- The host knows what is on after a layer went on. -/
theorem activateLayer (reported : h.Reported) (lm : LayerModifiers) (id : LayerId)
    (kind : Activation) : (h.activateLayer lm id kind).Reported := by
  have listed := LayerStack.mem_activeIds_activate h.layers id kind
  have sound := reported.sound.activate id kind
  unfold Holdings.activateLayer
  split <;> rename_i stack answer <;> rw [answer] at listed sound
  · obtain ⟨above, off, -⟩ := LayerStack.activate_opened (by rw [answer])
    refine ⟨?_, by simpa using sound, synced_sync _⟩
    rw [layers_layerChanged]
    exact (reported.mirrored.withLayers stack).layerOn lm above off (by simpa using listed)
  · exact ⟨(reported.mirrored.withLayers stack).congr (by simpa using listed), sound, reported.synced⟩
  · refine ⟨?_, sound, reported.synced⟩
    exact ((reported.mirrored.withLayers stack).congr (by simpa [warn] using listed)).announce rfl

/-- The host knows what is on after a layer went off. -/
theorem deactivateLayer (reported : h.Reported) (lm : LayerModifiers) (id : LayerId)
    (kind : Activation) : (h.deactivateLayer lm id kind).Reported := by
  have listed := LayerStack.mem_activeIds_deactivate reported.sound id kind
  have sound := reported.sound.deactivate id kind
  unfold Holdings.deactivateLayer
  split <;> rename_i stack answer <;> rw [answer] at listed sound
  · refine ⟨?_, by simpa using sound, synced_sync _⟩
    rw [layers_layerChanged]
    exact (reported.mirrored.withLayers stack).layerOff lm
      (LayerStack.deactivate_closed (by rw [answer])) (by simpa using listed)
  · exact ⟨(reported.mirrored.withLayers stack).congr (by simpa using listed), sound, reported.synced⟩

/-- The host knows that nothing is on after everything was released. -/
theorem releaseEverything (reported : h.Reported) (lm : LayerModifiers) :
    (h.releaseEverything lm).Reported := by
  have off := (reported.mirrored.withLayers .empty).layersOff lm h.layers.nodup_activeIds
  have empty : (h.releaseEverything lm).layers = .empty := layers_releaseEverything h lm
  refine ⟨?_, empty ▸ LayerStack.sound_empty, synced_sync _⟩
  rw [empty, LayerStack.activeIds_empty]
  exact ((off.mapModifiers _).releaseAll).sync

end Reported

/-- Every operation reports what it does. -/
theorem reported_durable (lm : LayerModifiers) : Durable lm Reported where
  pressStroke _ stroke reported := reported.pressStroke stroke
  releaseStroke _ stroke reported := reported.releaseStroke stroke
  tapStroke _ stroke reported := reported.tapStroke stroke
  retypeStroke _ stroke reported := reported.retypeStroke stroke
  pressManualShift _ unshifted shifted reported := reported.pressManualShift unshifted shifted
  holdModifiers _ _ reported := reported.mapModifiers _
  unholdModifiers _ _ reported := reported.mapModifiers _
  activateLayer _ id kind reported := reported.activateLayer lm id kind
  deactivateLayer _ id kind reported := reported.deactivateLayer lm id kind
  applyOneShotModifiers _ _ change reported := by
    cases change with
    | apply => exact reported.mapModifiers _
    | revoke => exact reported.mapModifiers _
  releaseEverything _ reported := reported.releaseEverything lm

/-- Nothing was told, and nothing is on. -/
theorem reported_empty : empty.Reported where
  mirrored := by
    constructor
    · exact .nil
    · simp [empty, HostEvent.pressed]
    · simp [empty, HostEvent.layersOn]
    · rfl
  sound := LayerStack.sound_empty
  synced := by decide

end Holdings

namespace Engine

/-- Every deed leaves the host knowing what is on. -/
theorem told_lasting (p : Profile) : Lasting p fun s => s.holdings.Reported :=
  (Holdings.reported_durable p.layerModifiers).lasting fun _ _ silent reported =>
    reported.of_layers rfl (reported.mirrored.announce silent) reported.synced

/-- Throughout every run the host knows what is on. -/
theorem reported (p : Profile) (calls : List Call) : (after p calls).holdings.Reported :=
  (told_lasting p).after Holdings.reported_empty calls

/-- The stream is a faithful mirror of the keyboard. After every run of calls, with any keys at any
times: the presses and releases of each code alternate, and no modifier key is ever pressed; each layer
goes on and off in turns, and the base layer is never mentioned; the modifiers are named only when they
change, starting from none; and the views of the stream show exactly the registered codes, the layers of
the stack and the current modifiers. -/
theorem stream_mirrors_keyboard (p : Profile) (calls : List Call) :
    let s := after p calls
    let stream := s.journal.stream
    (∀ code, Edges.Alternates (stream.filterMap (HostEvent.codeEdge? code))) ∧
    (∀ code, HostEvent.press code ∈ stream → code.isModifier = false) ∧
    (∀ id, Edges.Alternates (stream.filterMap (HostEvent.layerEdge? id))) ∧
    (HostEvent.layerOn baseLayer ∉ stream ∧ HostEvent.layerOff baseLayer ∉ stream) ∧
    (∅ :: stream.filterMap HostEvent.modifiers?).IsChain (· ≠ ·) ∧
    (HostEvent.pressed stream).Perm s.holdings.register.registered ∧
    (HostEvent.layersOn stream).Perm s.holdings.layers.activeIds ∧
    HostEvent.lastModifiers stream = s.modifiers := by
  intro s stream
  have reported : s.holdings.Reported := reported p calls
  have mirrored := reported.mirrored
  have orderly : HostEvent.Orderly stream := mirrored.orderly
  refine ⟨fun code => (orderly.codes_alternate code).1, fun code => orderly.press_plain,
    fun id => (orderly.layers_alternate id).1, orderly.base_silent, orderly.modifiers_change.1,
    ?_, ?_, ?_⟩
  · rw [List.perm_ext_iff_of_nodup orderly.nodup_pressed (Register.nodup_registered _)]
    exact fun code => (mirrored.codes code).trans Register.mem_registered.symm
  · rw [List.perm_ext_iff_of_nodup orderly.nodup_layersOn (LayerStack.nodup_activeIds _)]
    exact mirrored.layers
  · exact mirrored.told.trans reported.synced

end Engine

end KeyEngine
