import KeyEngine.Proofs.Holdings

/-!
# How presses ended

The engine notes in the journal on which event it acts, which key went down with which action, and how a
waiting key was settled. `Journal.verdicts` reads from these notes how the press of every tap-hold key
ended. The operations on what is on make no such notes: they only add to the journal, and do the same
whatever the journal says.
-/

namespace KeyEngine

/-- How the press of a tap-hold key ended. -/
structure Verdict where
  /-- The press. -/
  event : KeyEvent
  /-- How it was meant. -/
  decision : Decision
deriving DecidableEq

namespace Verdict

/-- The verdict on a press once a key was settled; only the press of that key is concerned. -/
def settle (key : Key) (decision : Decision) (verdict : Verdict) : Verdict :=
  if verdict.event.key = key then { verdict with decision := decision } else verdict

/-- What is known after a signal: the event acted on last, and how presses ended so far. The press of a
tap-hold key is a tap that repeats the one before, unless the key waits and is settled later. -/
def note (known : Option KeyEvent × List Verdict) : Signal → Option KeyEvent × List Verdict
  | .dispatched event => (some event, known.2)
  | .key _ action true =>
    if action.tap?.isSome then (known.1, known.2 ++ (known.1.map (⟨·, .tap⟩)).toList) else known
  | .settled key decision =>
    (known.1, known.2.dropLast ++ (known.2.getLast?.map (settle key decision)).toList)
  | _ => known

/-- Whether a signal says nothing of presses. -/
def isSilent : Signal → Bool
  | .host _ => true
  | .layer _ _ _ => true
  | .warning (.layerRefused _) => true
  | _ => false

/-- A signal that says nothing of presses adds nothing to what is known of them. -/
theorem note_of_silent {signal : Signal} (silent : isSilent signal = true)
    (known : Option KeyEvent × List Verdict) : note known signal = known := by
  cases signal with
  | dispatched => cases silent
  | key => cases silent
  | settled => cases silent
  | _ => rfl

end Verdict

namespace Journal

/-- What the notes of a journal say. -/
def notes (journal : Journal) : Option KeyEvent × List Verdict :=
  journal.toList.foldl Verdict.note (none, [])

/-- How the presses of tap-hold keys ended, in order. -/
def verdicts (journal : Journal) : List Verdict := (notes journal).2

/-- What is known after one more signal follows from what was known before it. -/
@[simp] theorem notes_push (journal : Journal) (signal : Signal) :
    notes (journal.push signal) = Verdict.note (notes journal) signal := by
  simp [notes]

/-- Silent signals add nothing to what is known of the presses. -/
theorem notes_append (journal : Journal) {out : List Signal}
    (silent : ∀ signal ∈ out, Verdict.isSilent signal = true) :
    notes (journal ++ out.toArray) = notes journal := by
  rw [notes, Array.toList_append, List.foldl_append]
  show out.foldl Verdict.note (notes journal) = notes journal
  induction out with
  | nil => rfl
  | cons signal rest ih =>
    rw [List.foldl_cons, Verdict.note_of_silent (silent signal (.head _))]
    exact ih fun other member => silent other (.tail _ member)

/-- What is added to a journal comes last in the stream to the host. -/
theorem stream_append (journal : Journal) (out : List Signal) :
    stream (journal ++ out.toArray) = stream journal ++ out.filterMap Signal.host? := by
  simp [stream]

end Journal

namespace Holdings

/-- The same things are on, with another journal. -/
def withJournal (h : Holdings) (journal : Journal) : Holdings := { h with journal := journal }

/-- An operation adds signals to the journal that say nothing of presses, and does the same whatever the
journal says. -/
def Appends (f : Holdings → Holdings) (h : Holdings) : Prop :=
  ∃ out : List Signal, (∀ signal ∈ out, Verdict.isSilent signal = true) ∧
    ∀ journal, f (h.withJournal journal) = (f h).withJournal (journal ++ out.toArray)

namespace Appends

variable {h : Holdings}

/-- Doing nothing adds nothing to the journal. -/
theorem nothing : Appends (fun h => h) h :=
  ⟨[], by simp, fun journal => by simp⟩

/-- One operation after another adds what both add. -/
theorem comp {f g : Holdings → Holdings} (first : Appends f h) (second : Appends g (f h)) :
    Appends (fun h => g (f h)) h := by
  obtain ⟨out, silent, same⟩ := first
  obtain ⟨more, silent', same'⟩ := second
  refine ⟨out ++ more, fun signal member => ?_, fun journal => ?_⟩
  · rcases List.mem_append.1 member with earlier | later
    · exact silent signal earlier
    · exact silent' signal later
  · show g (f (h.withJournal journal)) = _
    rw [same, same', ← List.append_toArray, Array.append_assoc]

/-- What an operation leaves in the journal is what it adds behind what was there. -/
theorem journal_eq {f : Holdings → Holdings} (appends : Appends f h) : ∃ out : List Signal,
    (∀ signal ∈ out, Verdict.isSilent signal = true) ∧ (f h).journal = h.journal ++ out.toArray := by
  obtain ⟨out, silent, adds⟩ := appends
  exact ⟨out, silent, congrArg Holdings.journal (adds h.journal)⟩

/-- What an operation does may depend on everything but the journal. -/
theorem congr {f g : Holdings → Holdings}
    (same : ∀ journal, f (h.withJournal journal) = g (h.withJournal journal))
    (appends : Appends g h) : Appends f h := by
  obtain ⟨out, silent, adds⟩ := appends
  have here : f h = g h := same h.journal
  refine ⟨out, silent, fun journal => ?_⟩
  rw [same, here, adds]

/-- A silent note only adds to the journal. -/
theorem announce {signal : Signal} (silent : Verdict.isSilent signal = true) :
    Appends (·.announce signal) h :=
  ⟨[signal], by simpa using silent, fun journal => by simp [Holdings.announce, withJournal]⟩

/-- A change of the modifiers adds nothing to the journal. -/
theorem mapModifiers (f : ModifierState → ModifierState) : Appends (·.mapModifiers f) h :=
  ⟨[], by simp, fun journal => by simp [Holdings.mapModifiers, withJournal]⟩

/-- A change of the layers adds nothing to the journal. -/
theorem withLayers (stack : LayerStack) : Appends ({ · with layers := stack }) h :=
  ⟨[], by simp, fun journal => by simp [withJournal]⟩

/-- Telling the host about the modifiers only adds to the journal. -/
theorem sync : Appends Holdings.sync h := by
  unfold Appends Holdings.sync
  by_cases told : h.effective = h.sent
  · refine ⟨[], by simp, fun journal => ?_⟩
    have still : (h.withJournal journal).effective = (h.withJournal journal).sent := told
    simp [told, still]
  · refine ⟨[.host (.modifiers h.effective)], by simp [Verdict.isSilent], fun journal => ?_⟩
    have still : ¬(h.withJournal journal).effective = (h.withJournal journal).sent := told
    rw [if_neg told, if_neg still]
    simp [tell, Holdings.announce, withJournal, effective]

/-- A change of the register only adds to the journal. -/
theorem mapRegister (f : Register → Register × List HostEvent) : Appends (·.mapRegister f) h := by
  refine ⟨(f h.register).2.map .host, fun signal member => ?_, fun journal => ?_⟩
  · obtain ⟨event, -, rfl⟩ := List.mem_map.1 member
    rfl
  · simp [Holdings.mapRegister, foldl_tell, withJournal]

section
variable (stroke : Keystroke)

/-- What is done to the code of a stroke only adds to the journal. -/
theorem mapCode (f : Register → KeyCode → Register × List HostEvent) :
    Appends (·.mapCode stroke f) h := by
  unfold Holdings.mapCode
  split
  · exact nothing
  · exact mapRegister _

/-- Attaching the modifiers of a stroke adds nothing to the journal. -/
theorem attach : Appends (·.attach stroke) h := (mapModifiers _).comp sync

/-- Detaching the modifiers of a stroke adds nothing to the journal. -/
theorem detach : Appends (·.detach stroke) h := (mapModifiers _).comp sync

/-- Pressing a stroke only adds to the journal. -/
theorem pressStroke : Appends (·.pressStroke stroke) h := (attach stroke).comp (mapCode stroke _)

/-- Typing a stroke anew only adds to the journal. -/
theorem retypeStroke : Appends (·.retypeStroke stroke) h := (attach stroke).comp (mapCode stroke _)

/-- Releasing a stroke only adds to the journal. -/
theorem releaseStroke : Appends (·.releaseStroke stroke) h := (mapCode stroke _).comp (detach stroke)

/-- Tapping a stroke only adds to the journal. -/
theorem tapStroke : Appends (·.tapStroke stroke) h :=
  ((attach stroke).comp (mapCode stroke _)).comp (detach stroke)

end

/-- Tapping strokes in a row only adds to the journal. -/
theorem tapStrokes (strokes : List Keystroke) : Appends (·.tapStrokes strokes) h := by
  induction strokes generalizing h with
  | nil => exact nothing
  | cons stroke rest ih => exact (tapStroke stroke).comp ih

/-- The press of a manual-shift key only adds to the journal. -/
theorem pressManualShift (unshifted shifted : Keystroke) :
    Appends (·.pressManualShift unshifted shifted) h := by
  by_cases off : h.shiftOn.isEmpty = true
  · refine congr (fun journal => ?_) (pressStroke unshifted)
    have still : (h.withJournal journal).shiftOn.isEmpty = true := off
    simp only [Holdings.pressManualShift, still, if_true]
  · have masked : Appends (fun h' => (((h'.mapModifiers (·.suppress h.shiftOn)).pressStroke
        shifted).mapModifiers (·.unsuppress h.shiftOn)).sync) h :=
      (((mapModifiers _).comp (pressStroke shifted)).comp (mapModifiers _)).comp sync
    refine congr (fun journal => ?_) masked
    have still : ¬(h.withJournal journal).shiftOn.isEmpty = true := off
    simp only [Holdings.pressManualShift, still]
    rfl

/-- Holding modifiers only adds to the journal. -/
theorem holdModifiers (set : ModifierSet) : Appends (·.holdModifiers set) h :=
  (mapModifiers _).comp sync

/-- Letting modifiers go only adds to the journal. -/
theorem unholdModifiers (set : ModifierSet) : Appends (·.unholdModifiers set) h :=
  (mapModifiers _).comp sync

section
variable (lm : LayerModifiers) (id : LayerId)

/-- The modifiers that a layer brings or takes only add to the journal. -/
theorem mapLayerModifiers (active : Bool) : Appends (·.mapLayerModifiers lm id active) h := by
  unfold Holdings.mapLayerModifiers
  cases lm.find? id with
  | none => exact nothing
  | some set => exact mapModifiers _

/-- A layer that went on or off only adds to the journal. -/
theorem layerChanged (active : Bool) : Appends (·.layerChanged lm id active) h := by
  have told : Appends (fun h => (h.tell (if active then .layerOn id else .layerOff id)).mapLayerModifiers
      lm id active) h :=
    (announce rfl).comp (mapLayerModifiers lm id active)
  have noted (h : Holdings) : Appends (fun h => h.announce (.layer id active h.effective)) h :=
    ⟨[.layer id active h.effective], by simp [Verdict.isSilent],
      fun journal => by simp [Holdings.announce, withJournal, effective]⟩
  exact (told.comp (noted _)).comp sync

/-- Turning a layer on only adds to the journal. -/
theorem activateLayer (kind : Activation) : Appends (·.activateLayer lm id kind) h := by
  unfold Holdings.activateLayer
  cases answer : h.layers.activate id kind with
  | mk stack opening =>
    have still (journal : Journal) :
        (h.withJournal journal).layers.activate id kind = (stack, opening) := answer
    cases opening with
    | opened =>
      refine congr (fun journal => ?_) ((withLayers stack).comp (layerChanged lm id true))
      rw [still]
    | kept =>
      refine congr (fun journal => ?_) (withLayers stack)
      rw [still]
    | refused =>
      have silent : Verdict.isSilent (.warning (.layerRefused id)) = true := rfl
      refine congr (fun journal => ?_) ((withLayers stack).comp (announce silent))
      rw [still]
      rfl

/-- Turning a layer off only adds to the journal. -/
theorem deactivateLayer (kind : Activation) : Appends (·.deactivateLayer lm id kind) h := by
  unfold Holdings.deactivateLayer
  cases answer : h.layers.deactivate id kind with
  | mk stack closed =>
    have still (journal : Journal) :
        (h.withJournal journal).layers.deactivate id kind = (stack, closed) := answer
    cases closed with
    | true =>
      refine congr (fun journal => ?_) ((withLayers stack).comp (layerChanged lm id false))
      rw [still]
    | false =>
      refine congr (fun journal => ?_) (withLayers stack)
      rw [still]

/-- Toggling a layer only adds to the journal. -/
theorem toggleLayer : Appends (·.toggleLayer lm id) h := by
  by_cases on : h.layers.contains id .toggled = true
  · refine congr (fun journal => ?_) (deactivateLayer lm id .toggled)
    have still : (h.withJournal journal).layers.contains id .toggled = true := on
    rw [Holdings.toggleLayer, if_pos still]
  · refine congr (fun journal => ?_) (activateLayer lm id .toggled)
    have still : ¬(h.withJournal journal).layers.contains id .toggled = true := on
    rw [Holdings.toggleLayer, if_neg still]

end

/-- Holding what an action holds only adds to the journal. -/
theorem holdAction (lm : LayerModifiers) (action : Action) : Appends (·.holdAction lm action) h := by
  cases action with
  | modTap hold tap => exact holdModifiers hold
  | layerTap layer tap => exact activateLayer lm layer .held
  | _ => exact nothing

/-- Letting go of what an action holds only adds to the journal. -/
theorem unholdAction (lm : LayerModifiers) (action : Action) :
    Appends (·.unholdAction lm action) h := by
  cases action with
  | modTap hold tap => exact unholdModifiers hold
  | layerTap layer tap => exact deactivateLayer lm layer .held
  | _ => exact nothing

end Appends

/-- The same things are on, and the host was told the same. -/
structure Same (h other : Holdings) : Prop where
  /-- They differ in their journals at most. -/
  parts : other = h.withJournal other.journal
  /-- Their journals told the host the same. -/
  stream : other.journal.stream = h.journal.stream

namespace Same

variable {h other : Holdings}

/-- The same things are on in a state as in itself. -/
theorem refl (h : Holdings) : h.Same h := ⟨rfl, rfl⟩

/-- A note on one side changes nothing. -/
theorem note (same : h.Same other) {signal : Signal} (silent : signal.host? = none) :
    (h.announce signal).Same other := by
  refine ⟨same.parts, same.stream.trans ?_⟩
  rw [stream_announce, silent, Option.toList_none, List.append_nil]

/-- An operation that only adds to the journal does the same on both sides. -/
theorem apply (same : h.Same other) {f : Holdings → Holdings} (appends : Appends f h) :
    (f h).Same (f other) := by
  obtain ⟨out, -, adds⟩ := appends
  have here : f h = (f h).withJournal (h.journal ++ out.toArray) := adds h.journal
  have there : f other = (f h).withJournal (other.journal ++ out.toArray) := by
    rw [same.parts]
    exact adds other.journal
  constructor
  · rw [there]
    rfl
  · rw [here, there]
    show Journal.stream (other.journal ++ out.toArray) = Journal.stream (h.journal ++ out.toArray)
    rw [Journal.stream_append, Journal.stream_append, same.stream]

end Same

/-- An operation that only adds to the journal makes no notes of presses. -/
theorem notes_of_appends {f : Holdings → Holdings} {h : Holdings} (appends : Appends f h) :
    (f h).journal.notes = h.journal.notes := by
  obtain ⟨out, silent, added⟩ := appends.journal_eq
  rw [added]
  exact Journal.notes_append h.journal silent

end Holdings

end KeyEngine
