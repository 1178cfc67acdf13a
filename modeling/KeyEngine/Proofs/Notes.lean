import KeyEngine.Proofs.Moments
import KeyEngine.Proofs.Operations
import KeyEngine.Proofs.Verdicts

/-!
# What the engine notes

Apart from what the host and the observers of layers are told, the journal holds the notes of the engine
itself: the event on which it acts, the key that goes down or up with its action, the press or release
that it ignores, the waiting key that it settles. No operation on what is on adds to these notes, so
`own_dispatch` and `own_settled` can say exactly which notes a deed adds.
-/

namespace KeyEngine

namespace Signal

/-- The key whose press a signal reports to the observers. -/
def reported? : Signal → Option Key
  | .key pressed _ true => some pressed
  | _ => none

end Signal

namespace Journal

/-- The notes of the engine itself. -/
def own (journal : Journal) : List Signal := journal.toList.filter (!Verdict.isSilent ·)

/-- The keys whose presses were reported to the observers. -/
def reported (journal : Journal) : List Key := journal.toList.filterMap Signal.reported?

/-- The keys whose presses were acted on. -/
def presses (journal : Journal) : List Key := (journal.dispatched.filter (·.pressed)).map (·.key)

/-- What the engine passes over in silence is no note of its own. -/
theorem own_append (journal : Journal) {out : List Signal}
    (silent : ∀ signal ∈ out, Verdict.isSilent signal = true) :
    own (journal ++ out.toArray) = own journal := by
  have nothing : out.filter (!Verdict.isSilent ·) = [] := by simpa using silent
  rw [own, Array.toList_append, List.filter_append, nothing, List.append_nil, own]

/-- A note of the engine's own comes after all earlier ones. -/
theorem own_push (journal : Journal) {signal : Signal} (speaks : Verdict.isSilent signal = false) :
    own (journal.push signal) = own journal ++ [signal] := by
  simp [own, speaks]

/-- What is read from signals that speak of presses can be read from the engine's own notes. -/
theorem filterMap_own {α : Type} {f : Signal → Option α}
    (mute : ∀ signal, Verdict.isSilent signal = true → f signal = none) (journal : Journal) :
    (own journal).filterMap f = journal.toList.filterMap f := by
  rw [own, List.filterMap_filter]
  congr 1
  funext signal
  cases silent : Verdict.isSilent signal with
  | false => rfl
  | true => exact (mute signal silent).symm

/-- The events acted on are read off the engine's own notes. -/
theorem dispatched_eq (journal : Journal) :
    journal.dispatched = (own journal).filterMap Signal.dispatched? := by
  refine (filterMap_own (fun signal silent => ?_) journal).symm
  cases signal with
  | dispatched event => cases silent
  | _ => rfl

/-- The reported presses are read off the engine's own notes. -/
theorem reported_eq (journal : Journal) :
    journal.reported = (own journal).filterMap Signal.reported? := by
  refine (filterMap_own (fun signal silent => ?_) journal).symm
  cases signal with
  | key key action pressed => cases silent
  | _ => rfl

/-- What more notes say of the events that were acted on. -/
theorem dispatched_of_own {journal next : Journal} {notes : List Signal}
    (noted : next.own = journal.own ++ notes) :
    next.dispatched = journal.dispatched ++ notes.filterMap Signal.dispatched? := by
  rw [dispatched_eq, noted, List.filterMap_append, ← dispatched_eq]

/-- What more notes say of the presses that were reported. -/
theorem reported_of_own {journal next : Journal} {notes : List Signal}
    (noted : next.own = journal.own ++ notes) :
    next.reported = journal.reported ++ notes.filterMap Signal.reported? := by
  rw [reported_eq, noted, List.filterMap_append, ← reported_eq]

/-- A press that was ignored as the second one is among the engine's own notes. -/
theorem pressedTwice_mem_iff {journal : Journal} {key : Key} :
    .pressedTwice key ∈ journal.warnings ↔ .warning (.pressedTwice key) ∈ own journal := by
  simp only [warnings, own, List.mem_filterMap, List.mem_filter]
  constructor
  · rintro ⟨signal, member, warned⟩
    cases signal with
    | warning w =>
      obtain rfl := Option.some.inj warned
      exact ⟨member, rfl⟩
    | _ => cases warned
  · rintro ⟨member, -⟩
    exact ⟨_, member, rfl⟩

end Journal

namespace Holdings

/-- What adds nothing but silent signals to the journal leaves the engine's own notes. -/
theorem own_of_appends {f : Holdings → Holdings} {h : Holdings} (appends : Appends f h) :
    (f h).journal.own = h.journal.own := by
  obtain ⟨out, silent, added⟩ := appends.journal_eq
  rw [added]
  exact Journal.own_append h.journal silent

namespace Appends

variable {h : Holdings}

/-- The notes that layers went off are silent ones. -/
theorem layersOff (lm : LayerModifiers) (ids : List LayerId) :
    Appends (fun h => ids.foldl (fun h id => h.layerChanged lm id false) h) h := by
  induction ids generalizing h with
  | nil => exact nothing
  | cons id rest ih => exact (layerChanged lm id false).comp ih

/-- The engine notes nothing of its own when it releases everything. -/
theorem releaseEverything (lm : LayerModifiers) : Appends (·.releaseEverything lm) h := by
  have off : Appends (fun other => h.layers.activeIds.foldl (fun h id => h.layerChanged lm id false)
      { other with layers := .empty }) h :=
    (withLayers .empty).comp (layersOff lm h.layers.activeIds)
  have released := ((off.comp (mapModifiers fun _ => .empty)).comp
    (mapRegister Register.releaseAll)).comp sync
  exact released.congr fun _ => rfl

/-- The engine notes nothing of its own when one-shot modifiers come or go. -/
theorem applyOneShotModifiers (set : ModifierSet) (change : OneShotChange) :
    Appends (·.applyOneShotModifiers set change) h := by
  cases change with
  | apply => exact (mapModifiers _).comp sync
  | revoke => exact (mapModifiers _).comp sync

/-- The engine notes nothing of its own when a one-shot layer comes or goes. -/
theorem applyOneShotLayer (lm : LayerModifiers) (id : LayerId) (change : OneShotChange) :
    Appends (·.applyOneShotLayer lm id change) h := by
  cases change with
  | apply => exact activateLayer lm id .oneShot
  | revoke => exact deactivateLayer lm id .oneShot

/-- What operations do one after another depends on everything but the journal. -/
theorem foldl {α : Type} {f : Holdings → α → Holdings} (each : ∀ (h : Holdings) a, Appends (f · a) h)
    (list : List α) : Appends (list.foldl f) h := by
  induction list generalizing h with
  | nil => exact nothing
  | cons a rest ih => exact (each h a).comp ih

/-- What a machine does depends on everything but the journal. -/
theorem step (lm : LayerModifiers) (shots : OneShots) (trigger : Action)
    (f : OneShot → OneShot × Option OneShotChange) : Appends (fun h => (shots.step h lm trigger f).2) h := by
  unfold OneShots.step
  cases trigger with
  | oneShotModifier set =>
    dsimp only
    cases (f (shots.modifiers.get set)).2 with
    | none => exact nothing
    | some change => exact applyOneShotModifiers set change
  | oneShotLayer id =>
    dsimp only
    cases (f (shots.layers.get id)).2 with
    | none => exact nothing
    | some change => exact applyOneShotLayer lm id change
  | _ => exact nothing

/-- What all machines do depends on everything but the journal. -/
theorem sweep (lm : LayerModifiers) (shots : OneShots)
    (f : Action → OneShot → OneShot × Option OneShotChange) :
    Appends (fun h => (shots.sweep h lm f).2) h := by
  unfold OneShots.sweep
  exact (foldl (fun _ _ => applyOneShotLayer lm _ _) _).comp
    (foldl (fun _ _ => applyOneShotModifiers _ _) _)

end Appends

/-- Notes on both sides that tell the host the same change nothing. -/
theorem Same.announce {h other : Holdings} (same : h.Same other) {signal note : Signal}
    (told : note.host? = signal.host?) : (h.announce signal).Same (other.announce note) := by
  constructor
  · rw [same.parts]
    rfl
  · rw [stream_announce, stream_announce, same.stream, told]

/-- No operation on what is on adds to the engine's own notes. -/
theorem own_durable (lm : LayerModifiers) (notes : List Signal) :
    Durable lm fun h => h.journal.own = notes where
  pressStroke _ stroke holds := (own_of_appends (.pressStroke stroke)).trans holds
  releaseStroke _ stroke holds := (own_of_appends (.releaseStroke stroke)).trans holds
  tapStroke _ stroke holds := (own_of_appends (.tapStroke stroke)).trans holds
  retypeStroke _ stroke holds := (own_of_appends (.retypeStroke stroke)).trans holds
  pressManualShift _ unshifted shifted holds :=
    (own_of_appends (.pressManualShift unshifted shifted)).trans holds
  holdModifiers _ set holds := (own_of_appends (.holdModifiers set)).trans holds
  unholdModifiers _ set holds := (own_of_appends (.unholdModifiers set)).trans holds
  activateLayer _ id kind holds := (own_of_appends (.activateLayer lm id kind)).trans holds
  deactivateLayer _ id kind holds := (own_of_appends (.deactivateLayer lm id kind)).trans holds
  applyOneShotModifiers _ set change holds :=
    (own_of_appends (.applyOneShotModifiers set change)).trans holds
  releaseEverything _ holds := (own_of_appends (.releaseEverything lm)).trans holds

end Holdings

namespace Engine

variable (p : Profile) (s : Engine)

/-- What is noted of an event on which the engine acts: the key with its action, or that the event makes
no sense. -/
def outcome (event : KeyEvent) : Signal :=
  if event.pressed then
    if s.active.contains event.key then .warning (.pressedTwice event.key)
    else .key event.key (s.resolve p event.key) true
  else
    match s.active.find? event.key with
    | none => .warning (.releasedWithoutPress event.key)
    | some entry => .key event.key entry.action false

/-- A note of the engine's own is added behind the earlier ones. -/
theorem own_announce {signal : Signal} (speaks : Verdict.isSilent signal = false) :
    (s.announce signal).journal.own = s.journal.own ++ [signal] :=
  Journal.own_push _ speaks

/-- Performing an action adds no note of the engine's own. -/
theorem own_perform (event : KeyEvent) (action : Action) :
    (s.perform p event action).2.journal.own = s.journal.own :=
  (Holdings.own_durable p.layerModifiers s.journal.own).perform event action rfl

/-- Undoing what a key did adds no note of the engine's own. -/
theorem own_undo (event : KeyEvent) (entry : ActiveKey) :
    (s.undo p event entry).journal.own = s.journal.own :=
  (Holdings.own_durable p.layerModifiers s.journal.own).undo event entry rfl

/-- A press adds one note: what comes of it. -/
theorem own_press {event : KeyEvent} (pressed : event.pressed = true) :
    (s.press p event).journal.own = s.journal.own ++ [s.outcome p event] := by
  rw [outcome, if_pos pressed]
  cases down : s.active.contains event.key with
  | true =>
    rw [press_of_down down]
    exact own_announce s rfl
  | false =>
    rw [press_of_up down]
    have kept : (s.performed p event).2.journal.own = s.journal.own := own_perform p _ event _
    rw [← kept]
    exact own_announce (s.performed p event).2 rfl

/-- A release adds one note: what comes of it. -/
theorem own_release {event : KeyEvent} (released : event.pressed = false) :
    (s.release p event).journal.own = s.journal.own ++ [s.outcome p event] := by
  rw [outcome, if_neg (Bool.eq_false_iff.1 released)]
  cases found : s.active.find? event.key with
  | none =>
    rw [release_of_up found]
    exact own_announce s rfl
  | some entry =>
    rw [release_of_down found]
    have kept : ({ s with active := s.active.remove event.key }.undo p event entry).journal.own =
        s.journal.own := own_undo p _ event entry
    rw [← kept]
    exact own_announce _ rfl

/-- Acting on an event is noted with what comes of it. -/
theorem own_dispatch (event : KeyEvent) : (s.dispatch p event).journal.own =
    s.journal.own ++ [.dispatched event, s.outcome p event] := by
  have noted : (s.announce (.dispatched event)).journal.own = s.journal.own ++ [.dispatched event] :=
    own_announce s rfl
  rw [List.append_cons, ← noted]
  unfold dispatch
  dsimp only
  split
  · rename_i pressed
    exact own_press p _ pressed
  · rename_i released
    exact own_release p _ (Bool.eq_false_iff.2 released)

/-- Time that passes for the one-shots adds no note of the engine's own. -/
theorem own_elapse (now : Millis) : (s.elapse p now).journal.own = s.journal.own :=
  (Holdings.own_durable p.layerModifiers s.journal.own).oneShots.elapse now rfl

/-- A cancel adds no note of the engine's own. -/
theorem own_cancel : (s.cancel p).journal.own = s.journal.own :=
  (Holdings.own_durable p.layerModifiers s.journal.own).releaseEverything _ rfl

/-- Settling the waiting key is noted, and nothing else. -/
theorem own_settled (decision : Decision) (head : PendingKey) :
    (s.settled p decision head).journal.own = s.journal.own ++ [.settled head.key decision] := by
  have durable := Holdings.own_durable p.layerModifiers
    (s.journal.own ++ [.settled head.key decision])
  have noted : (s.announce (.settled head.key decision)).journal.own =
      s.journal.own ++ [.settled head.key decision] := own_announce s rfl
  cases decision with
  | hold => exact durable.holdAction head.action noted
  | tap =>
    unfold settled settle
    dsimp only
    cases head.action.tap? with
    | none => exact noted
    | some tap =>
      dsimp only
      split
      · exact durable.pressStroke _ tap noted
      · exact durable.oneShots.consume _ (durable.pressStroke _ tap noted)

end Engine

end KeyEngine
