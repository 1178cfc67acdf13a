import Mathlib
import KeyEngine.Proofs.Direct
import KeyEngine.Proofs.Waiting

/-!
# Buffering is invisible

The engine keeps events back while a key waits, and replays them when the key is settled, possibly behind
the next key that waits. `Tracks` relates its state to a direct keyboard that has not acted yet on the
press of the waiting key and on the events kept back behind it: those events are owed. Every task of the
agenda keeps the relation, and what the direct keyboard makes of the owed events and those to come does
not change. When nothing waits nothing is owed, and both keyboards have done the same.
-/

namespace KeyEngine

/-- Whether an action is the trigger of a one-shot. -/
def Action.isOneShot : Action → Bool
  | .oneShotModifier _ => true
  | .oneShotLayer _ => true
  | _ => false

/-- A keymap without one-shots and without cancel. -/
def Keymap.Steady (map : Keymap) : Prop :=
  ∀ layer ∈ map.layers, ∀ action ∈ layer.keys, action.isOneShot = false ∧ action ≠ .cancel

instance (map : Keymap) : Decidable map.Steady :=
  inferInstanceAs (Decidable (∀ layer ∈ map.layers, ∀ action ∈ layer.keys,
    action.isOneShot = false ∧ action ≠ .cancel))

/-- Every action looked up in a steady keymap is neither a trigger nor cancel. -/
theorem Keymap.Steady.action? {map : Keymap} (steady : map.Steady) {id : LayerId} {key : Key}
    {action : Action} (entry : map.action? id key = some action) :
    action.isOneShot = false ∧ action ≠ .cancel := by
  obtain ⟨layer, listed, entered⟩ := Option.bind_eq_some_iff.1 entry
  exact steady layer (List.mem_of_getElem? listed) action (List.mem_of_getElem? entered)

/-- On a steady keymap, no key means a one-shot or cancel, whatever layers are on. -/
theorem Keymap.Steady.resolve {map : Keymap} (steady : map.Steady) (stack : LayerStack) (key : Key) :
    (stack.resolve map key).isOneShot = false ∧ stack.resolve map key ≠ .cancel := by
  unfold LayerStack.resolve
  cases found : (stack.entries.filterMap fun e => map.action? e.id key).find? (· != .transparent) with
  | some action =>
    obtain ⟨entry, -, resolved⟩ := List.mem_filterMap.1 (List.mem_of_find?_eq_some found)
    exact steady.action? resolved
  | none =>
    rw [Option.getD_none, Keymap.base]
    cases entry : map.action? baseLayer key with
    | none => exact ⟨rfl, Action.noConfusion⟩
    | some action => exact steady.action? entry

namespace PendingKey

/-- The press of a waiting key. -/
def event (head : PendingKey) : KeyEvent := ⟨head.key, true, head.since⟩

end PendingKey

namespace Direct

variable {p : Profile} {h : Holdings}

/-- The direct keyboard adds to the journal and never reads it when it performs an action. -/
theorem appends_perform (p : Profile) (action : Action) (h : Holdings) :
    Holdings.Appends (fun h => (perform p action h).2) h := by
  unfold perform
  cases action with
  | plain stroke =>
    dsimp only
    split
    · exact .holdModifiers _
    · exact .pressStroke stroke
  | manualShift unshifted shifted => exact .pressManualShift unshifted shifted
  | macroSequence strokes => exact .tapStrokes strokes
  | retype stroke => exact .retypeStroke stroke
  | momentaryLayer id => exact .activateLayer _ id .held
  | toggleLayer id => exact .toggleLayer _ id
  | _ => exact .nothing

/-- The direct keyboard adds to the journal and never reads it when it settles a tap-hold key. -/
theorem appends_settle (p : Profile) (action : Action) (tap : Keystroke) (decision : Decision)
    (h : Holdings) : Holdings.Appends (fun h => (settle p action tap decision h).2) h := by
  cases decision with
  | tap => exact .pressStroke tap
  | hold => exact .holdAction _ action

/-- The direct keyboard adds to the journal and never reads it when it undoes what a key did. -/
theorem appends_undo (p : Profile) (entry : ActiveKey) (h : Holdings) :
    Holdings.Appends (undo p entry) h := by
  obtain ⟨action, state⟩ := entry
  unfold undo
  cases state with
  | stroke stroke => exact .releaseStroke stroke
  | modifiers set => exact .unholdModifiers set
  | tapped =>
    dsimp only
    cases action.tap? with
    | some tap => exact .releaseStroke tap
    | none => exact .nothing
  | held => exact .unholdAction _ action
  | layer id => exact .deactivateLayer _ id .held
  | _ => exact .nothing

/-- What a press comes to depends on everything but the journal. -/
theorem state_perform {other : Holdings} (same : h.Same other) (action : Action) :
    (perform p action other).1 = (perform p action h).1 := by
  rw [same.parts]
  unfold perform
  cases action with
  | plain stroke =>
    dsimp only
    split <;> rfl
  | _ => rfl

/-- No press comes to what only triggers come to. -/
theorem state_perform_ne (action : Action) : (perform p action h).1 ≠ .oneShot := by
  unfold perform
  cases action with
  | plain stroke =>
    dsimp only
    split <;> exact KeyState.noConfusion
  | _ => exact KeyState.noConfusion

/-- On the direct keyboard a tap-hold key is left in the state its verdict says. -/
theorem state_settle (action : Action) (tap : Keystroke) (decision : Decision) :
    (settle p action tap decision h).1 = decision.state := by
  cases decision <;> rfl

end Direct

namespace Engine

variable {p : Profile} {s : Engine} {d : Direct}

/-- No key uses up one-shots that were never pressed. -/
theorem consume_of_empty (empty : s.oneShots = .empty) (action : Action) : s.consume p action = s := by
  obtain ⟨holdings, tapHold, oneShots, active⟩ := s
  cases empty
  rfl

/-- Time changes nothing while no trigger was pressed. -/
theorem elapse_of_empty (empty : s.oneShots = .empty) (now : Millis) :
    s.mapOneShots (·.tick · p.settings p.layerModifiers now) = s := by
  obtain ⟨holdings, tapHold, oneShots, active⟩ := s
  cases empty
  rfl

/-- Without one-shots, the press of an action with one meaning does what it does directly. -/
theorem perform_of_single {action : Action} (empty : s.oneShots = .empty)
    (steady : action.isOneShot = false ∧ action ≠ .cancel) (single : action.tap? = none)
    (event : KeyEvent) :
    s.perform p event action = ((Direct.perform p action s.holdings).1,
      s.mapHoldings fun h => (Direct.perform p action h).2) := by
  have used (f : Holdings → Holdings) : (s.mapHoldings f).consume p action = s.mapHoldings f :=
    consume_of_empty (s := s.mapHoldings f) empty action
  unfold perform Direct.perform
  cases action with
  | plain stroke =>
    dsimp only
    by_cases bare : stroke.isModifierOnly = true
    · simp only [bare, if_true]
    · simp only [bare, used]
      rfl
  | manualShift unshifted shifted => exact congrArg (Prod.mk _) (used _)
  | macroSequence strokes => exact congrArg (Prod.mk _) (used _)
  | retype stroke => exact congrArg (Prod.mk _) (used _)
  | momentaryLayer id => rfl
  | toggleLayer id => rfl
  | transparent => rfl
  | noOp => rfl
  | modTap => cases single
  | layerTap => cases single
  | oneShotModifier => cases steady.1
  | oneShotLayer => cases steady.1
  | cancel => exact absurd rfl steady.2

/-- Undoing a press does what it does directly, unless the key is a trigger. -/
theorem undo_of_plain {entry : ActiveKey} (plain : entry.state ≠ .oneShot) (event : KeyEvent) :
    (s.undo p event entry).holdings = Direct.undo p entry s.holdings ∧
      (s.undo p event entry).oneShots = s.oneShots := by
  obtain ⟨action, state⟩ := entry
  unfold undo Direct.undo
  cases state with
  | oneShot => exact absurd rfl plain
  | tapped =>
    dsimp only
    cases action.tap? <;> exact ⟨rfl, rfl⟩
  | _ => exact ⟨rfl, rfl⟩

/-- Without one-shots, settling a waiting key does what its verdict says directly. -/
theorem settled_of_dual {head : PendingKey} {tap : Keystroke} (empty : s.oneShots = .empty)
    (dual : head.action.tap? = some tap) (decision : Decision) :
    (s.settled p decision head).holdings = (Direct.settle p head.action tap decision
        (s.holdings.announce (.settled head.key decision))).2 ∧
      (s.settled p decision head).oneShots = .empty := by
  unfold settled settle
  cases decision with
  | hold => exact ⟨rfl, empty⟩
  | tap =>
    dsimp only
    simp only [dual]
    split
    · exact ⟨rfl, empty⟩
    · rw [consume_of_empty]
      · exact ⟨rfl, empty⟩
      · exact empty

/-- The engine and a direct keyboard have the same things on. -/
structure Alike (s : Engine) (d : Direct) : Prop where
  /-- No trigger was pressed. -/
  empty : s.oneShots = .empty
  /-- The same is on, and the host was told the same. -/
  same : s.holdings.Same d.holdings
  /-- No key that is down is a trigger. -/
  plain : ∀ key entry, d.active.find? key = some entry → entry.state ≠ .oneShot

namespace Alike

/-- A note that the host does not see leaves both keyboards alike. -/
theorem announce (alike : s.Alike d) {signal : Signal} (silent : signal.host? = none) :
    (s.announce signal).Alike d :=
  ⟨alike.empty, alike.same.note silent, alike.plain⟩

/-- Keyboards that are alike give a key the same action. -/
theorem resolve (alike : s.Alike d) (key : Key) :
    d.holdings.layers.resolve p.keymap key = s.resolve p key := by
  rw [alike.same.parts]
  rfl

end Alike

/-- The engine has done what the direct keyboard has done, given the verdicts on the presses so far; the
direct keyboard still owes the press of the waiting key and the events kept back behind it. -/
inductive Tracks (p : Profile) :
    Engine → Direct → List Verdict → List KeyEvent → Prop where
  /-- Nothing waits, and nothing is owed. -/
  | idle {s : Engine} {d : Direct} {verdicts : List Verdict} (free : s.tapHold.head = none)
      (active : s.active = d.active) (known : s.journal.verdicts = verdicts) (alike : s.Alike d) :
      Tracks p s d verdicts []
  /-- A key waits; until it is settled, it counts as tapped. -/
  | waiting {s : Engine} {d : Direct} {verdicts : List Verdict} {head : PendingKey}
      (waits : s.tapHold.head = some head) (up : d.active.contains head.key = false)
      (means : d.holdings.layers.resolve p.keymap head.key = head.action)
      (active : s.active = d.active.insert head.key ⟨head.action, .pending head.since⟩)
      (known : s.journal.verdicts = verdicts ++ [⟨head.event, .tap⟩]) (alike : s.Alike d) :
      Tracks p s d verdicts (head.event :: head.buffer)

/-- A keyboard that is tracked has the same things on, whether a key waits or not. -/
theorem Tracks.alike {verdicts : List Verdict} {owed : List KeyEvent}
    (tracks : Tracks p s d verdicts owed) : s.Alike d := by
  cases tracks with
  | idle _ _ _ alike => exact alike
  | waiting _ _ _ _ _ alike => exact alike

/-- While no key waits nothing is owed, and both keyboards have the same keys down and know the same
verdicts. -/
theorem Tracks.owes_nothing {verdicts : List Verdict} {owed : List KeyEvent}
    (tracks : Tracks p s d verdicts owed) (free : s.tapHold.head = none) :
    owed = [] ∧ s.active = d.active ∧ s.journal.verdicts = verdicts := by
  cases tracks with
  | idle _ active known => exact ⟨rfl, active, known⟩
  | waiting waits =>
    rw [free] at waits
    cases waits

/-- While a key waits its press and the events behind it are owed, the direct keyboard has it up and
would give it the same action, and its verdict is taken to be a tap so far. -/
theorem Tracks.owes_head {verdicts : List Verdict} {owed : List KeyEvent} {head : PendingKey}
    (tracks : Tracks p s d verdicts owed) (waits : s.tapHold.head = some head) :
    owed = head.event :: head.buffer ∧ d.active.contains head.key = false ∧
      d.holdings.layers.resolve p.keymap head.key = head.action ∧
      s.active = d.active.insert head.key ⟨head.action, .pending head.since⟩ ∧
      s.journal.verdicts = verdicts ++ [⟨head.event, .tap⟩] := by
  cases tracks with
  | idle free =>
    rw [free] at waits
    cases waits
  | @waiting other waits' up means active known =>
    obtain rfl := Option.some.inj (waits'.symm.trans waits)
    exact ⟨rfl, up, means, active, known⟩

/-- After some task the engine is tracked again, with some more verdicts; what the direct keyboard makes
of the events that were owed or brought and of any others is what it makes of the events owed now. -/
def Proceeds (p : Profile) (next : Engine) (d : Direct) (verdicts : List Verdict)
    (before after : List KeyEvent) : Prop :=
  ∃ d' new owed, Tracks p next d' (verdicts ++ new) owed ∧
    ∀ rest more, d.run p (before ++ rest) (new ++ more) = d'.run p (owed ++ after ++ rest) more

/-- Settling the waiting key puts its verdict in place of the tap that was taken for granted. -/
theorem verdicts_settled {journal : Journal} {verdicts : List Verdict} {head : PendingKey}
    (known : journal.verdicts = verdicts ++ [⟨head.event, .tap⟩]) (decision : Decision) :
    Journal.verdicts (journal.push (.settled head.key decision)) =
      verdicts ++ [⟨head.event, decision⟩] := by
  have notes : journal.notes.2 = verdicts ++ [⟨head.event, .tap⟩] := known
  have same : head.event.key = head.key := rfl
  rw [Journal.verdicts, Journal.notes_push]
  simp [Verdict.note, Verdict.settle, notes, same]

/-- Where no key is down as a trigger, none is after another key went down as something else. -/
theorem plain_enter {keys : ActiveKeys} {key : Key} {added : ActiveKey}
    (plain : ∀ key entry, keys.find? key = some entry → entry.state ≠ .oneShot)
    (fresh : added.state ≠ .oneShot) (other : Key) (entry : ActiveKey)
    (found : (keys.insert key added).find? other = some entry) : entry.state ≠ .oneShot := by
  rw [ActiveKeys.find?_insert] at found
  split at found
  · obtain rfl := Option.some.inj found
    exact fresh
  · exact plain other entry found

/-- When a waiting key is settled, the direct keyboard takes its press with that verdict. -/
theorem tracks_settled {verdicts : List Verdict} {head : PendingKey} {owed : List KeyEvent}
    (tracks : Tracks p s d verdicts owed) (consistent : s.Consistent)
    (waits : s.tapHold.head = some head) (decision : Decision) :
    Proceeds p (s.settled p decision head) d verdicts owed head.buffer := by
  obtain ⟨rfl, up, means, active, known⟩ := tracks.owes_head waits
  have alike := tracks.alike
  obtain ⟨tap, dual⟩ := consistent.dual _ waits
  obtain ⟨does, still⟩ := settled_of_dual (p := p) alike.empty dual decision
  have unheard : (Signal.settled head.key decision).host? = none := rfl
  have noted := alike.same.note unheard
  have appends := Direct.appends_settle p head.action tap decision
  refine ⟨d.enter head.key head.action (Direct.settle p head.action tap decision d.holdings),
    [⟨head.event, decision⟩], [], .idle ?_ ?_ ?_ ⟨still, ?_, ?_⟩, fun rest more => ?_⟩
  · rw [tapHold_settled]
    rfl
  · rw [active_settled, active, ActiveKeys.setState_insert, Direct.enter, Direct.state_settle]
  · rw [Engine.journal, does, Journal.verdicts, Holdings.notes_of_appends (appends _)]
    exact verdicts_settled known decision
  · rw [does]
    exact noted.apply (appends _)
  · refine plain_enter alike.plain ?_
    rw [Direct.state_settle]
    cases decision <;> exact KeyState.noConfusion
  · have pressed : head.event.pressed = true := rfl
    have free : d.active.contains head.event.key = false := up
    rw [List.cons_append, List.singleton_append, Direct.run_pressed pressed,
      Direct.press_of_dual free means dual]
    rfl

/-- A tap-hold key repeats its tap or waits. -/
theorem perform_of_dual {action : Action} {tap : Keystroke} (dual : action.tap? = some tap)
    (event : KeyEvent) : s.perform p event action = s.pressTapHold p event action tap := by
  cases action with
  | modTap hold stroke => cases dual; rfl
  | layerTap layer stroke => cases dual; rfl
  | _ => cases dual

section
variable {event : KeyEvent} {verdicts : List Verdict}

/-- Noting the press of a key adds a verdict if the key has a tap-hold action. -/
theorem verdicts_key {journal : Journal} (noted : journal.notes = (some event, verdicts))
    (key : Key) (action : Action) : Journal.verdicts (journal.push (.key key action true)) =
      verdicts ++ (action.tap?.map fun _ => ⟨event, .tap⟩).toList := by
  rw [Journal.verdicts, Journal.notes_push, noted]
  unfold Verdict.note
  cases dual : action.tap? with
  | none => simp [dual]
  | some tap => simp [dual]

/-- The direct keyboard ignores a press that the engine ignores. -/
theorem tracks_press_down (free : s.tapHold.head = none) (active : s.active = d.active)
    (alike : s.Alike d) (noted : s.journal.notes = (some event, verdicts))
    (pressed : event.pressed = true) (down : s.active.contains event.key = true) :
    Proceeds p (s.press p event) d verdicts [event] [] := by
  rw [press_of_down down]
  refine ⟨d, [], [], .idle free active ?_ (alike.announce rfl), fun rest more => ?_⟩
  · show (Journal.notes (s.journal.push _)).2 = _
    rw [Journal.notes_push, noted, List.append_nil]
    rfl
  · rw [List.singleton_append, Direct.run_pressed pressed, Direct.press_of_down (active ▸ down)]
    rfl

/-- A key with one meaning is acted on by the direct keyboard at once. -/
theorem tracks_press_single (free : s.tapHold.head = none) (active : s.active = d.active)
    (alike : s.Alike d) (noted : s.journal.notes = (some event, verdicts))
    (pressed : event.pressed = true) (up : s.active.contains event.key = false)
    (steady : (s.resolve p event.key).isOneShot = false ∧ s.resolve p event.key ≠ .cancel)
    (single : (s.resolve p event.key).tap? = none) :
    Proceeds p (s.press p event) d verdicts [event] [] := by
  have does : s.performed p event = _ :=
    perform_of_single (s := s.readied event) alike.empty steady single event
  have appends := Direct.appends_perform p (s.resolve p event.key)
  rw [press_of_up up, does]
  refine ⟨d.enter event.key (s.resolve p event.key)
    (Direct.perform p (s.resolve p event.key) d.holdings), [], [],
    .idle free ?_ ?_ ⟨alike.empty, ?_, ?_⟩, fun rest more => ?_⟩
  · rw [Direct.enter, Direct.state_perform alike.same, ← active]
    rfl
  · have kept : (Direct.perform p (s.resolve p event.key) s.holdings).2.journal.notes = _ :=
      (Holdings.notes_of_appends (appends s.holdings)).trans noted
    have known := verdicts_key kept event.key (s.resolve p event.key)
    rw [single] at known
    exact known
  · exact (alike.same.apply (appends _)).note rfl
  · exact plain_enter alike.plain (Direct.state_perform_ne _)
  · rw [List.singleton_append, Direct.run_pressed pressed,
      Direct.press_of_single (active ▸ up) (alike.resolve event.key) single]
    rfl

/-- A tap-hold key that repeats its tap is acted on by the direct keyboard at once; one that waits is
owed. -/
theorem tracks_press_dual (free : s.tapHold.head = none) (active : s.active = d.active)
    (alike : s.Alike d) (noted : s.journal.notes = (some event, verdicts))
    (pressed : event.pressed = true) (up : s.active.contains event.key = false) {tap : Keystroke}
    (dual : (s.resolve p event.key).tap? = some tap) :
    Proceeds p (s.press p event) d verdicts [event] [] := by
  have does : s.performed p event =
      (s.readied event).pressTapHold p event (s.resolve p event.key) tap :=
    perform_of_dual (s := s.readied event) dual event
  have means := alike.resolve (p := p) event.key
  rw [press_of_up up, does, pressTapHold]
  split
  · have appends := Holdings.Appends.pressStroke (h := s.holdings) tap
    rw [consume_of_empty (s := (s.readied event).mapHoldings (·.pressStroke tap)) alike.empty]
    refine ⟨d.enter event.key (s.resolve p event.key)
      (Direct.settle p (s.resolve p event.key) tap .tap d.holdings), [⟨event, .tap⟩], [],
      .idle free ?_ ?_ ⟨alike.empty, ?_, ?_⟩, fun rest more => ?_⟩
    · show s.active.insert _ _ = _
      rw [active]
      rfl
    · have kept : (s.holdings.pressStroke tap).journal.notes = _ :=
        (Holdings.notes_of_appends appends).trans noted
      have known := verdicts_key kept event.key (s.resolve p event.key)
      rw [dual] at known
      exact known
    · exact (alike.same.apply appends).note rfl
    · exact plain_enter alike.plain KeyState.noConfusion
    · rw [List.singleton_append, List.singleton_append, Direct.run_pressed pressed,
        Direct.press_of_dual (active ▸ up) means dual]
      rfl
  · have owed : [event] = PendingKey.event (.new event.key (s.resolve p event.key) event.time
        p.settings.tappingTerm) :: [] := by
      show [event] = [⟨event.key, true, event.time⟩]
      rw [← pressed]
    have known := verdicts_key noted event.key (s.resolve p event.key)
    rw [dual] at known
    refine ⟨d, [], [event], ?_, fun rest more => rfl⟩
    rw [List.append_nil, owed]
    refine .waiting rfl (active ▸ up) means ?_ ?_ ⟨alike.empty, alike.same.note rfl, alike.plain⟩
    · rw [← active]
      rfl
    · rw [← (List.cons.inj owed).1]
      exact known

/-- A key that goes up has its press undone on the direct keyboard at once. -/
theorem tracks_release (free : s.tapHold.head = none) (active : s.active = d.active)
    (alike : s.Alike d) (noted : s.journal.notes = (some event, verdicts))
    (released : event.pressed = false) : Proceeds p (s.release p event) d verdicts [event] [] := by
  cases found : s.active.find? event.key with
  | none =>
    have up : d.active.find? event.key = none := active ▸ found
    rw [release_of_up found]
    refine ⟨d, [], [], .idle free active ?_ (alike.announce rfl), fun rest more => ?_⟩
    · show (Journal.notes (s.journal.push _)).2 = _
      rw [Journal.notes_push, noted, List.append_nil]
      rfl
    · rw [List.singleton_append, Direct.run_released released, Direct.release, up]
      rfl
  | some entry =>
    have down : d.active.find? event.key = some entry := active ▸ found
    have plain := alike.plain event.key entry down
    obtain ⟨does, still⟩ := undo_of_plain (p := p)
      (s := { s with active := s.active.remove event.key }) plain event
    have appends := Direct.appends_undo p entry
    rw [release_of_down found]
    refine ⟨⟨Direct.undo p entry d.holdings, d.active.remove event.key⟩, [], [],
      .idle ((head_undo p event entry _).trans free) ?_ ?_ ⟨still.trans alike.empty, ?_, ?_⟩,
      fun rest more => ?_⟩
    · rw [← active]
      exact active_undo p event entry _
    · show (Journal.notes (Array.push (Holdings.journal (Engine.holdings (undo p event entry _))) _)).2 = _
      rw [does, Journal.notes_push, Holdings.notes_of_appends (appends _)]
      show (Verdict.note s.journal.notes _).2 = _
      rw [noted, List.append_nil]
      rfl
    · show (Holdings.announce (Engine.holdings (undo p event entry _)) _).Same _
      rw [does]
      exact (alike.same.apply (appends _)).note rfl
    · intro key other left
      dsimp only at left
      rw [ActiveKeys.find?_remove] at left
      split at left
      · cases left
      · exact alike.plain key other left
    · rw [List.singleton_append, Direct.run_released released, Direct.release, down]
      rfl

/-- An event on which the engine acts is taken by the direct keyboard, or is owed. -/
theorem tracks_dispatch {owed : List KeyEvent} (steady : p.keymap.Steady)
    (tracks : Tracks p s d verdicts owed) (free : s.tapHold.head = none) :
    Proceeds p (s.dispatch p event) d verdicts (owed ++ [event]) [] := by
  obtain ⟨rfl, active, known⟩ := tracks.owes_nothing free
  have alike : (s.announce (.dispatched event)).Alike d := tracks.alike.announce rfl
  have noted : (s.announce (.dispatched event)).journal.notes = (some event, verdicts) := by
    show Journal.notes (s.journal.push _) = _
    rw [Journal.notes_push, ← known]
    rfl
  unfold dispatch
  dsimp only
  split
  · rename_i pressed
    cases down : s.active.contains event.key with
    | true => exact tracks_press_down free active alike noted pressed down
    | false =>
      cases dual : (s.resolve p event.key).tap? with
      | none =>
        exact tracks_press_single free active alike noted pressed down
          (steady.resolve s.holdings.layers event.key) dual
      | some tap => exact tracks_press_dual free active alike noted pressed down dual
  · rename_i released
    exact tracks_release free active alike noted (Bool.eq_false_iff.2 released)

end

/-- An event of another key that is kept back is owed after the others. -/
theorem tracks_keptBack {verdicts : List Verdict} {owed : List KeyEvent} {head : PendingKey}
    (tracks : Tracks p s d verdicts owed) (waits : s.tapHold.head = some head) (event : KeyEvent) :
    Tracks p (s.keptBack head event) d verdicts (owed ++ [event]) := by
  obtain ⟨rfl, up, means, active, known⟩ := tracks.owes_head waits
  have alike := tracks.alike
  exact .waiting (head_keptBack head event s) up means active known
    ⟨alike.empty, alike.same, alike.plain⟩

/-- A press of the waiting key that is dropped is ignored by the direct keyboard in its turn. -/
theorem tracks_again {verdicts : List Verdict} {owed : List KeyEvent} {head : PendingKey}
    {event : KeyEvent} (tracks : Tracks p s d verdicts owed) (consistent : s.Consistent)
    (waits : s.tapHold.head = some head) (same : head.key = event.key)
    (pressed : event.pressed = true) (warning : Warning) :
    Proceeds p (s.warn warning) d verdicts (owed ++ [event]) [] := by
  obtain ⟨rfl, up, means, active, known⟩ := tracks.owes_head waits
  refine ⟨d, [], head.event :: head.buffer, ?_, fun rest more => ?_⟩
  · rw [List.append_nil]
    refine .waiting waits up means active ?_ (tracks.alike.announce rfl)
    show (Journal.notes (s.journal.push _)).2 = _
    rw [Journal.notes_push, ← known]
    rfl
  · have dropped : d.run p (head.event :: (head.buffer ++ event :: rest)) more =
        d.run p (head.event :: (head.buffer ++ rest)) more :=
      Direct.run_press_again rfl same.symm pressed (consistent.others head waits) more
    simpa using dropped

/-- Events that come later are owed later. -/
theorem Proceeds.later {next : Engine} {verdicts : List Verdict} {before after : List KeyEvent}
    (proceeds : Proceeds p next d verdicts before after) (events : List KeyEvent) :
    Proceeds p next d verdicts (before ++ events) (after ++ events) := by
  obtain ⟨d', new, owed, tracks, same⟩ := proceeds
  refine ⟨d', new, owed, tracks, fun rest more => ?_⟩
  have extended := same (events ++ rest) more
  simpa [List.append_assoc] using extended

/-- Every task leaves the engine tracked, and the direct keyboard with the same to do. -/
theorem tracks_step {verdicts : List Verdict} {owed : List KeyEvent} {task : Task} {next : Engine}
    {more : List Task} (steady : p.keymap.Steady) (tracks : Tracks p s d verdicts owed)
    (consistent : s.Consistent) (taken : Step p s task next more) :
    Proceeds p next d verdicts (owed ++ Task.events [task]) (Task.events more) := by
  cases taken with
  | early =>
    refine ⟨d, [], owed, ?_, fun rest more => ?_⟩
    · rw [List.append_nil]
      exact tracks
    · rfl
  | due waits =>
    have settled := tracks_settled tracks consistent waits .hold
    simpa using settled
  | act free => exact tracks_dispatch steady tracks free
  | again waits same pressed => exact tracks_again tracks consistent waits same pressed _
  | @lift event head waits =>
    have settled := (tracks_settled tracks consistent waits .tap).later [event]
    simpa using settled
  | abort waits other pressed cancels =>
    exact absurd cancels (steady.resolve s.holdings.layers _).2
  | @keep event head waits =>
    refine ⟨d, [], owed ++ [event], ?_, fun rest more => ?_⟩
    · rw [List.append_nil]
      exact tracks_keptBack tracks waits event
    · simp
  | @interrupt event head waits other =>
    have kept := tracks_keptBack tracks waits event
    have settled : Proceeds p (s.settled p .hold (head.push event)) d verdicts (owed ++ [event])
        (head.push event).buffer :=
      tracks_settled kept (consistent.keptBack waits other) rfl .hold
    simpa using settled

/-- After a run that was brought `events` of `total` and is to be brought `coming`, the engine is tracked
by a direct keyboard that has acted on all events but those. -/
def Follows (p : Profile) (total : List KeyEvent) (s : Engine) (coming : List KeyEvent) : Prop :=
  s.Consistent ∧ ∃ d verdicts owed, Tracks p s d verdicts owed ∧
    ∀ more, Direct.start.run p total (verdicts ++ more) = d.run p (owed ++ coming) more

variable {total coming : List KeyEvent}

/-- At the start all events are still to come. -/
theorem follows_start (p : Profile) (total : List KeyEvent) : Follows p total start total := by
  refine ⟨consistent_start, .start, [], [], .idle rfl rfl rfl ⟨rfl, ?_, ?_⟩, fun more => rfl⟩
  · exact .refl _
  · intro key entry found
    cases found

/-- A task of the agenda keeps both keyboards together, with the events it brings no longer to come. -/
theorem follows_step {task : Task} {rest more : List Task} {next : Engine} (steady : p.keymap.Steady)
    (follows : Follows p total s (Task.events (task :: rest) ++ coming))
    (taken : Step p s task next more) :
    Follows p total next (Task.events (more ++ rest) ++ coming) := by
  obtain ⟨consistent, d, verdicts, owed, tracks, same⟩ := follows
  obtain ⟨d', new, owed', tracks', proceeds⟩ := tracks_step steady tracks consistent taken
  refine ⟨(consistent_lasting p).step taken consistent, d', verdicts ++ new, owed', tracks',
    fun final => ?_⟩
  have split : Task.events (task :: rest) = Task.events [task] ++ Task.events rest :=
    Task.events_append [task] rest
  rw [List.append_assoc, same, split, Task.events_append]
  simpa only [List.append_assoc] using proceeds (Task.events rest ++ coming) final

/-- Doing an agenda to its end keeps both keyboards together. -/
theorem follows_run (agenda : List Task) (steady : p.keymap.Steady)
    (follows : Follows p total s (Task.events agenda ++ coming)) :
    Follows p total (s.run p agenda) coming :=
  run_invariant (fun s agenda => Follows p total s (Task.events agenda ++ coming))
    (fun _ _ _ _ _ taken follows => follows_step steady follows taken) follows

/-- A tick keeps both keyboards together and brings no event. -/
theorem follows_tick (steady : p.keymap.Steady) (follows : Follows p total s coming) (now : Millis) :
    Follows p total (s.tick p now) coming := by
  have expired : Follows p total (s.run p [.expire now]) coming := follows_run [.expire now] steady follows
  have alike : ∃ d, (s.run p [.expire now]).Alike d := by
    obtain ⟨-, d, verdicts, owed, tracks, -⟩ := expired
    exact ⟨d, tracks.alike⟩
  obtain ⟨d, alike⟩ := alike
  rw [tick, elapse_of_empty alike.empty]
  exact expired

/-- Calls without a cancel keep both keyboards together until no event is left to come. -/
theorem follows_answers {calls : List Call} (steady : p.keymap.Steady)
    (going : ∀ call ∈ calls, call ≠ .cancel)
    (follows : Follows p total s (Call.events calls)) :
    Follows p total (calls.foldl (answer p) s) [] := by
  induction calls generalizing s with
  | nil => exact follows
  | cons call rest ih =>
    refine ih (fun later member => going later (.tail _ member)) ?_
    cases call with
    | event event =>
      exact follows_run [.feed event] steady (follows_tick steady follows event.time)
    | tick now => exact follows_tick steady follows now
    | cancel => exact absurd rfl (going .cancel (.head _))

/-- Buffering is invisible. On a keymap without one-shots and cancel, after every run of events and ticks
in which no key waits in the end, the direct keyboard that is given the same events and the verdicts of
that run uses up all of them; it has told the host the same stream, and has the same layers, modifiers,
codes and keys down. -/
theorem buffering_invisible (p : Profile) (steady : p.keymap.Steady) (calls : List Call)
    (going : ∀ call ∈ calls, call ≠ .cancel) (free : (after p calls).isPending = false) :
    let s := after p calls
    ∃ d, Direct.start.run p (Call.events calls) s.journal.verdicts = some (d, []) ∧
      d.holdings.journal.stream = s.journal.stream ∧
      d.holdings.layers = s.holdings.layers ∧
      d.holdings.modifiers = s.holdings.modifiers ∧
      d.holdings.register = s.holdings.register ∧
      d.active = s.active := by
  intro s
  obtain ⟨-, d, verdicts, owed, tracks, same⟩ :=
    follows_answers steady going (follows_start p (Call.events calls))
  change Tracks p s d verdicts owed at tracks
  have none : s.tapHold.head = none :=
    Option.not_isSome_iff_eq_none.1 (Bool.eq_false_iff.1 free)
  obtain ⟨rfl, active, known⟩ := tracks.owes_nothing none
  have ran := same []
  rw [List.append_nil, ← known] at ran
  have alike := tracks.alike
  have parts := alike.same.parts
  refine ⟨d, ran, alike.same.stream, ?_, ?_, ?_, active.symm⟩
  · rw [parts]
    rfl
  · rw [parts]
    rfl
  · rw [parts]
    rfl

set_option maxRecDepth 10000 in
/-- Two keys wait behind each other and are held by the third one. -/
theorem buffering_invisible_nested :
    Profile.sample.keymap.Steady ∧ (∀ call ∈ Call.nested, call ≠ .cancel) ∧
    (after .sample Call.nested).isPending = false ∧
    (after .sample Call.nested).journal.verdicts.map (·.decision) = [.hold, .hold] ∧
    ∃ d, Direct.start.run .sample (Call.events Call.nested)
        (after .sample Call.nested).journal.verdicts = some (d, []) ∧
      d.holdings.journal.stream = (after .sample Call.nested).journal.stream := by
  have steady : Profile.sample.keymap.Steady := by decide
  have going : ∀ call ∈ Call.nested, call ≠ .cancel := by decide
  have free : (after .sample Call.nested).isPending = false := by cbv
  obtain ⟨d, ran, stream, -⟩ := buffering_invisible .sample steady Call.nested going free
  refine ⟨steady, going, free, ?_, d, ran, stream⟩
  cbv

end Engine

end KeyEngine
