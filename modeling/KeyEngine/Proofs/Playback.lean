import KeyEngine.Replay
import KeyEngine.Proofs.Delays
import KeyEngine.Proofs.Effects
import KeyEngine.Proofs.ScriptText

/-!
# Replaying a script

A replay has a clock of its own, which never runs backwards, and empties the journal before every line.
Neither makes a difference. The lines of a script are in the order of their times, so that the clock shows
the time of each line; and what was told before does not matter to the engine, which is said by
`answer_behind`. A replay therefore shows what the calls of its lines make the engine tell the host.
-/

namespace KeyEngine

/-- The call that a line of a script stands for; there is none where the session ends. -/
def ScriptLine.call? (line : ScriptLine) : Option Call :=
  match line.command with
  | .down key => some (.event ⟨key, true, line.time⟩)
  | .up key => some (.event ⟨key, false, line.time⟩)
  | .tick => some (.tick line.time)
  | .cancel => some .cancel
  | .quit => none

namespace Script

/-- The lines of a script up to where the session ends. -/
def session (script : List ScriptLine) : List ScriptLine := script.takeWhile (·.command.continues)

end Script

namespace Millis

/-- A clock that is moved forward shows the time to which it was moved. -/
theorem advance_of_le {now target : Millis} (le : now ≤ target) : now.advance target = target := by
  unfold advance
  split
  · rfl
  · rename_i still
    ext
    exact Nat.le_antisymm le (Nat.le_of_not_lt still)

end Millis

namespace Holdings

/-- The same is on, and something was told before. -/
def behind (earlier : Journal) (h : Holdings) : Holdings := h.withJournal (earlier ++ h.journal)

/-- An operation that only adds to the journal does the same, whatever was told before. -/
theorem Appends.behind {f : Holdings → Holdings} {h : Holdings} (appends : Appends f h)
    (earlier : Journal) : f (h.behind earlier) = (f h).behind earlier := by
  obtain ⟨out, -, adds⟩ := appends
  have here : f h = (f h).withJournal (h.journal ++ out.toArray) := adds h.journal
  have told : (f h).journal = h.journal ++ out.toArray := congrArg journal here
  rw [Holdings.behind, adds, Holdings.behind, told, Array.append_assoc]

/-- A note comes behind what was told earlier. -/
theorem announce_behind (earlier : Journal) (h : Holdings) (signal : Signal) :
    (h.behind earlier).announce signal = (h.announce signal).behind earlier := by
  simp [Holdings.behind, withJournal, announce]

end Holdings

namespace Engine

variable {p : Profile} (earlier : Journal) (s : Engine)

/-- The same state, and something was told before. -/
def behind (s : Engine) : Engine := { s with holdings := s.holdings.behind earlier }

/-- Every state is what it is without its journal, behind what was told. -/
theorem behind_drained : s.drained.behind s.journal = s := by
  simp [behind, drained, Holdings.behind, Holdings.withJournal, journal]

/-- Nothing that was told earlier is left once the journal is emptied. -/
theorem drained_behind : (s.behind earlier).drained = s.drained := rfl

/-- The host was told what was told earlier, and then the rest. -/
theorem stream_behind : (s.behind earlier).journal.stream = earlier.stream ++ s.journal.stream := by
  simp [behind, Holdings.behind, Holdings.withJournal, journal, Journal.stream]

/-- A note of the engine comes behind what was told earlier. -/
theorem announce_behind (signal : Signal) :
    (s.behind earlier).announce signal = (s.announce signal).behind earlier :=
  congrArg (fun h => { s with holdings := h }) (Holdings.announce_behind earlier s.holdings signal)

variable {s}

/-- A change of what is on that only adds to the journal is the same behind what was told earlier. -/
theorem mapHoldings_behind {f : Holdings → Holdings} (appends : s.holdings.Appends f) :
    (s.behind earlier).mapHoldings f = (s.mapHoldings f).behind earlier :=
  congrArg (fun h => { s with holdings := h }) (appends.behind earlier)

/-- A transition of one-shots that does the same whatever was told before. -/
theorem mapOneShots_behind {f : OneShots → Holdings → OneShots × Holdings}
    (appends : s.holdings.Appends fun h => (f s.oneShots h).2)
    (same : (f s.oneShots (s.holdings.behind earlier)).1 = (f s.oneShots s.holdings).1) :
    (s.behind earlier).mapOneShots f = (s.mapOneShots f).behind earlier := by
  have told := appends.behind earlier
  show { s with
    oneShots := (f s.oneShots (s.holdings.behind earlier)).1
    holdings := (f s.oneShots (s.holdings.behind earlier)).2 } = _
  rw [same, told]
  rfl

/-- One machine does the same whatever was told before. -/
theorem step_behind {trigger : Action} {f : OneShot → OneShot × Option OneShotChange} :
    (s.behind earlier).mapOneShots (·.step · p.layerModifiers trigger f) =
      (s.mapOneShots (·.step · p.layerModifiers trigger f)).behind earlier := by
  refine mapOneShots_behind earlier (.step p.layerModifiers s.oneShots trigger f) ?_
  cases trigger <;> rfl

/-- So do all machines. -/
theorem sweep_behind {f : Action → OneShot → OneShot × Option OneShotChange} :
    (s.behind earlier).mapOneShots (·.sweep · p.layerModifiers f) =
      (s.mapOneShots (·.sweep · p.layerModifiers f)).behind earlier :=
  mapOneShots_behind earlier (.sweep p.layerModifiers s.oneShots f) rfl

/-- The next key does the same to the one-shots whatever was told earlier. -/
theorem consume_behind (action : Action) :
    (s.behind earlier).consume p action = (s.consume p action).behind earlier :=
  sweep_behind earlier

/-- Time ends the same one-shots whatever was told earlier. -/
theorem elapse_behind (now : Millis) :
    (s.behind earlier).elapse p now = (s.elapse p now).behind earlier :=
  sweep_behind earlier

/-- A cancel does the same whatever was told earlier. -/
theorem cancel_behind : (s.behind earlier).cancel p = (s.cancel p).behind earlier := by
  have told := (Holdings.Appends.releaseEverything (h := s.holdings) p.layerModifiers).behind earlier
  show { s.cancel p with holdings := (s.holdings.behind earlier).releaseEverything p.layerModifiers } = _
  rw [told]
  rfl

/-- A tap-hold key that goes down does the same whatever was told earlier. -/
theorem pressTapHold_behind (event : KeyEvent) (action : Action) (tap : Keystroke) :
    (s.behind earlier).pressTapHold p event action tap =
      ((s.pressTapHold p event action tap).1, (s.pressTapHold p event action tap).2.behind earlier) := by
  unfold pressTapHold
  have same : (s.behind earlier).repeatsTap p event = s.repeatsTap p event := rfl
  rw [same]
  split
  · rw [mapHoldings_behind earlier (.pressStroke tap), consume_behind]
  · rfl

/-- The press of an action does the same whatever was told before. -/
theorem perform_behind (event : KeyEvent) (action : Action) : (s.behind earlier).perform p event action =
    ((s.perform p event action).1, (s.perform p event action).2.behind earlier) := by
  unfold perform
  cases action with
  | plain stroke =>
    dsimp only
    split
    · rw [mapHoldings_behind earlier (.holdModifiers _)]
    · rw [mapHoldings_behind earlier (.pressStroke stroke), consume_behind]
  | modTap hold tap => exact pressTapHold_behind earlier event _ tap
  | layerTap id tap => exact pressTapHold_behind earlier event _ tap
  | oneShotModifier set => exact congrArg (Prod.mk _) (step_behind earlier)
  | oneShotLayer id => exact congrArg (Prod.mk _) (step_behind earlier)
  | manualShift unshifted shifted =>
    dsimp only
    rw [mapHoldings_behind earlier (.pressManualShift unshifted shifted), consume_behind]
    rfl
  | macroSequence strokes =>
    dsimp only
    rw [mapHoldings_behind earlier (.tapStrokes strokes), consume_behind]
  | retype stroke =>
    dsimp only
    rw [mapHoldings_behind earlier (.retypeStroke stroke), consume_behind]
  | momentaryLayer id =>
    exact congrArg (Prod.mk _) (mapHoldings_behind earlier (.activateLayer p.layerModifiers id .held))
  | toggleLayer id =>
    exact congrArg (Prod.mk _) (mapHoldings_behind earlier (.toggleLayer p.layerModifiers id))
  | cancel => exact congrArg (Prod.mk _) (cancel_behind earlier)
  | transparent => rfl
  | noOp => rfl

/-- A press does the same whatever was told earlier. -/
theorem press_behind (event : KeyEvent) :
    (s.behind earlier).press p event = (s.press p event).behind earlier := by
  cases down : s.active.contains event.key with
  | true =>
    rw [press_of_down down, press_of_down (s := s.behind earlier) down]
    exact announce_behind earlier s _
  | false =>
    have done : (s.behind earlier).performed p event =
        ((s.performed p event).1, (s.performed p event).2.behind earlier) :=
      perform_behind (s := s.readied event) earlier event _
    rw [press_of_up down, press_of_up (s := s.behind earlier) down, done]
    dsimp only
    have same : (s.behind earlier).resolve p event.key = s.resolve p event.key := rfl
    rw [same, announce_behind]
    rfl

/-- Undoing what a key did does the same whatever was told earlier. -/
theorem undo_behind (event : KeyEvent) (entry : ActiveKey) :
    (s.behind earlier).undo p event entry = (s.undo p event entry).behind earlier := by
  obtain ⟨action, state⟩ := entry
  unfold undo
  cases state with
  | stroke stroke => exact mapHoldings_behind earlier (.releaseStroke stroke)
  | modifiers set => exact mapHoldings_behind earlier (.unholdModifiers set)
  | tapped =>
    dsimp only
    cases action.tap? with
    | none => rfl
    | some tap =>
      dsimp only
      rw [mapHoldings_behind earlier (.releaseStroke tap)]
      rfl
  | held => exact mapHoldings_behind earlier (.unholdAction p.layerModifiers action)
  | pending since => rfl
  | oneShot => exact step_behind earlier
  | layer id => exact mapHoldings_behind earlier (.deactivateLayer p.layerModifiers id .held)
  | inert => rfl

/-- A release does the same whatever was told earlier. -/
theorem release_behind (event : KeyEvent) :
    (s.behind earlier).release p event = (s.release p event).behind earlier := by
  cases found : s.active.find? event.key with
  | none =>
    rw [release_of_up found, release_of_up (s := s.behind earlier) found]
    exact announce_behind earlier s _
  | some entry =>
    have undone := undo_behind (p := p) (s := { s with active := s.active.remove event.key }) earlier event
      entry
    rw [release_of_down found, release_of_down (s := s.behind earlier) found, ← announce_behind]
    exact congrArg (fun t : Engine => t.announce (.key event.key entry.action false)) undone

/-- The engine acts on an event in the same way whatever was told earlier. -/
theorem dispatch_behind (event : KeyEvent) :
    (s.behind earlier).dispatch p event = (s.dispatch p event).behind earlier := by
  unfold dispatch
  dsimp only
  rw [announce_behind]
  split
  · exact press_behind earlier event
  · exact release_behind earlier event

/-- A waiting key is noted as settled in the same way whatever was told earlier. -/
theorem marked_behind (decision : Decision) (head : PendingKey) :
    (s.behind earlier).marked decision head = (s.marked decision head).behind earlier :=
  congrArg (fun h => { s.marked decision head with holdings := h })
    (Holdings.announce_behind earlier s.holdings _)

/-- A waiting key is settled in the same way whatever was told earlier. -/
theorem settled_behind (decision : Decision) (head : PendingKey) :
    (s.behind earlier).settled p decision head = (s.settled p decision head).behind earlier := by
  cases decision with
  | hold =>
    show ((s.behind earlier).marked .hold head).mapHoldings (·.holdAction p.layerModifiers head.action) =
      ((s.marked .hold head).mapHoldings (·.holdAction p.layerModifiers head.action)).behind earlier
    rw [marked_behind, mapHoldings_behind earlier (.holdAction p.layerModifiers head.action)]
  | tap =>
    cases dual : head.action.tap? with
    | none =>
      have quiet (t : Engine) : t.settled p .tap head = t.marked .tap head := by
        simp only [settled, settle, dual]
        rfl
      rw [quiet, quiet, marked_behind]
    | some tap =>
      have types (t : Engine) : t.settled p .tap head =
          if tap.isModifierOnly then (t.marked .tap head).mapHoldings (·.pressStroke tap)
          else ((t.marked .tap head).mapHoldings (·.pressStroke tap)).consume p head.action := by
        simp only [settled, settle, dual]
        rfl
      have told := mapHoldings_behind (s := s.marked .tap head) earlier (.pressStroke tap)
      rw [types, types, marked_behind, told, consume_behind]
      split <;> rfl

/-- What a task does, and what it puts in front of the agenda, does not depend on what was told before. -/
theorem task_behind (task : Task) : (s.behind earlier).step p task =
    ((s.step p task).1.behind earlier, (s.step p task).2) := by
  have same : (s.behind earlier).tapHold = s.tapHold := rfl
  cases task with
  | expire now =>
    unfold step
    dsimp only
    rw [same]
    split
    · rfl
    · split
      · exact congrArg (·, _) (settled_behind earlier .hold _)
      · rfl
  | feed event =>
    have means : (s.behind earlier).resolve p event.key = s.resolve p event.key := rfl
    unfold step
    dsimp only
    rw [same, means, dispatch_behind]
    split
    · rfl
    · split
      · split
        · exact congrArg (·, _) (announce_behind earlier s _)
        · exact congrArg (·, _) (settled_behind earlier .tap _)
      · split
        · rfl
        · split
          · exact congrArg (·, _) (settled_behind earlier .hold _)
          · rfl

/-- An agenda is done in the same way whatever was told earlier. -/
theorem run_behind (agenda : List Task) :
    (s.behind earlier).run p agenda = (s.run p agenda).behind earlier := by
  induction s, agenda using run.induct p with
  | case1 s => rw [run_nil, run_nil]
  | case2 s task rest ih => rw [run_cons, run_cons, task_behind, ih]

/-- A tick does the same whatever was told earlier. -/
theorem tick_behind (now : Millis) :
    (s.behind earlier).tick p now = (s.tick p now).behind earlier := by
  show ((s.behind earlier).run p [.expire now]).elapse p now = ((s.run p [.expire now]).elapse p now).behind _
  rw [run_behind, elapse_behind]

/-- The answer to a call does not depend on what was told before. -/
theorem answer_behind (call : Call) :
    (s.behind earlier).answer p call = (s.answer p call).behind earlier := by
  cases call with
  | event event =>
    show ((s.behind earlier).tick p event.time).run p [.feed event] = _
    rw [tick_behind, run_behind]
    rfl
  | tick now => exact tick_behind earlier now
  | cancel => exact cancel_behind earlier

/-- What was told before an answer stays in front of what the answer tells. -/
theorem answer_eq_behind (s : Engine) (call : Call) :
    s.answer p call = (s.drained.answer p call).behind s.journal := by
  rw [← answer_behind, behind_drained]

/-- What calls make the engine tell is what they make it tell with an empty journal. -/
theorem toldEach_congr {t : Engine} (same : s.drained = t.drained) (calls : List Call) :
    s.toldEach p calls = t.toldEach p calls := by
  cases calls with
  | nil => rfl
  | cons call rest => rw [toldEach, toldEach, same]

/-- An empty journal in front makes no difference to the state in which a call is answered. -/
theorem drained_answer_drained (call : Call) : (s.drained.answer p call).drained = (s.answer p call).drained := by
  rw [answer_eq_behind s call, drained_behind]

/-- Calls lead to the same state, journal apart, from states that differ only in what was told. -/
theorem drained_answers_congr {t : Engine} (same : s.drained = t.drained) (calls : List Call) :
    (calls.foldl (answer p) s).drained = (calls.foldl (answer p) t).drained := by
  induction calls generalizing s t with
  | nil => exact same
  | cons call rest ih =>
    refine ih ?_
    rw [← drained_answer_drained, same, drained_answer_drained]

/-- Several answers tell what was told before, and then what each of them tells. -/
theorem stream_answers (calls : List Call) : (calls.foldl (answer p) s).journal.stream =
    s.journal.stream ++ (s.toldEach p calls).flatten := by
  induction calls generalizing s with
  | nil => simp [toldEach]
  | cons call rest ih =>
    have told := stream_behind s.journal (s.drained.answer p call)
    rw [← answer_eq_behind] at told
    rw [List.foldl_cons, ih, told, toldEach, toldEach_congr (drained_answer_drained call).symm]
    simp

end Engine

namespace ScriptLine

/-- A line with which the session goes on stands for a call. -/
theorem call?_isSome {line : ScriptLine} : line.call?.isSome = line.command.continues := by
  obtain ⟨time, command⟩ := line
  cases command <;> rfl

/-- The lines of a session are its calls, one by one. -/
theorem map_call? (script : List ScriptLine) :
    (Script.session script).map call? = ((Script.session script).filterMap call?).map some := by
  induction script with
  | nil => rfl
  | cons line rest ih =>
    cases goes : line.command.continues with
    | false => simp [Script.session, goes]
    | true =>
      obtain ⟨call, means⟩ := Option.isSome_iff_exists.1 (call?_isSome.trans goes)
      have lines : Script.session (line :: rest) = line :: Script.session rest :=
        List.takeWhile_cons_of_pos goes
      rw [lines, List.filterMap_cons_some means, List.map_cons, List.map_cons, means, ih]

/-- A command is applied by answering the call. -/
theorem apply_eq_answer {p : Profile} {line : ScriptLine} {call : Call} (calls : line.call? = some call)
    (s : Engine) : s.apply p line.time line.command = s.answer p call := by
  obtain ⟨time, command⟩ := line
  cases command <;> cases calls <;> rfl

end ScriptLine

namespace Terminal

/-- Every line begins with the time of its event. -/
theorem line_eq_timeColumn (t : Terminal) (timed : TimedEvent) :
    ∃ rest, t.line timed = timeColumn timed.time ++ rest := by
  have composed (arrow : String) (color : Color) (indented : Bool) (text tag : String) :
      ∃ rest, t.compose timed.time arrow color indented text tag = timeColumn timed.time ++ rest := by
    unfold compose
    simp only [String.append_assoc]
    exact ⟨_, rfl⟩
  obtain ⟨time, event⟩ := timed
  cases event <;> exact composed _ _ _ _ _

end Terminal

namespace Replay

open Engine in
/-- With a clock that the times of a script never run behind, its lines are replayed as calls: every line
shows what its call tells, at the time of the line. -/
theorem runFrom_eq {p : Profile} {script : List ScriptLine} {clock : Millis} {s : Engine}
    (inOrder : (clock :: script.map (·.time)).IsChain (· ≤ ·)) :
    let calls := (Script.session script).filterMap ScriptLine.call?
    (runFrom p clock s script).1.drained = (calls.foldl (answer p) s).drained ∧
    (runFrom p clock s script).2 = ((Script.session script).zip (s.toldEach p calls)).flatMap
      fun (line, told) => told.map (TimedEvent.mk line.time) := by
  induction script generalizing clock s with
  | nil => exact ⟨rfl, rfl⟩
  | cons line rest ih =>
    obtain ⟨le, later⟩ := List.isChain_cons_cons.1 inOrder
    cases goes : line.command.continues with
    | false => simp [runFrom, Script.session, goes, toldEach]
    | true =>
      obtain ⟨call, means⟩ := Option.isSome_iff_exists.1 (ScriptLine.call?_isSome.trans goes)
      have lines : Script.session (line :: rest) = line :: Script.session rest :=
        List.takeWhile_cons_of_pos goes
      have shown := Millis.advance_of_le le
      have applied := ScriptLine.apply_eq_answer (p := p) means s.drained
      obtain ⟨same, told⟩ := ih (s := s.drained.answer p call) later
      simp only [runFrom, goes, if_true, shown, applied, lines, List.filterMap_cons_some means, toldEach,
        List.zip_cons_cons, List.flatMap_cons, List.foldl_cons]
      exact ⟨same.trans (drained_answers_congr (drained_answer_drained call) _),
        congrArg (_ ++ ·) told⟩

/-- A replay shows what the calls of its lines make the engine tell. Whatever the state of the engine, every
line of a script up to where the session ends stands for one call at its own time, and the terminal shows
one line for each thing that the call makes the engine tell, in order, with the time of the line of the
script in front; together these are what the engine tells if it is called directly. In the end the engine
is in the state in which the calls leave it. -/
theorem run_as_called {text : String} {script : List ScriptLine} (read : Script.ofString text = .ok script)
    (p : Profile) (s : Engine) (t : Terminal) :
    let lines := Script.session script
    let calls := lines.filterMap ScriptLine.call?
    let final := calls.foldl (Engine.answer p) s
    lines.map ScriptLine.call? = calls.map some ∧
    (run p s script).2.map t.line = ((lines.zip (s.toldEach p calls)).flatMap fun (line, told) =>
      told.map fun event => t.line ⟨line.time, event⟩) ∧
    (∀ timed, ∃ rest, t.line timed = Terminal.timeColumn timed.time ++ rest) ∧
    final.journal.stream = s.journal.stream ++ (s.toldEach p calls).flatten ∧
    (run p s script).1.drained = final.drained := by
  obtain ⟨same, told⟩ := runFrom_eq (p := p) (s := s) (Script.inOrder_readLines read)
  refine ⟨ScriptLine.map_call? script, ?_, Terminal.line_eq_timeColumn t, Engine.stream_answers _, same⟩
  rw [run, told, List.map_flatMap]
  simp only [List.map_map]
  rfl

/-- A key of the small keyboard is tapped, and another one goes down when the session has ended. -/
def tapThenQuit : String := "# tapped\n5ms down k0\n5 TICK # nothing is due\n\n30 up 0\n30 quit\n40 down 2"

/-- A terminal that shows bold text between stars. -/
def starred : Terminal where
  layerNames := Profile.sample.keymap.layers.map (·.name)
  paint _ bold text := if bold then "*" ++ text ++ "*" else text

set_option maxRecDepth 10000 in
/-- Two lines bear one time, and the line after the end of the session shows nothing, on a terminal that
shows bold text between stars. -/
theorem tap_as_called :
    (Script.ofString tapThenQuit).toOption.map (·.length) = some 5 ∧
    (run .sample .start ((Script.ofString tapThenQuit).toOption.getD [])).2.map starred.line =
      ["   30ms [*↓*] A [key]", "   30ms [*↑*] A [key]"] := by
  have read : Script.ofString tapThenQuit = .ok ((Script.ofString tapThenQuit).toOption.getD []) := by
    cbv
  obtain ⟨-, shown, -⟩ := run_as_called read .sample .start starred
  refine ⟨by cbv, shown.trans ?_⟩
  cbv

end Replay

end KeyEngine
