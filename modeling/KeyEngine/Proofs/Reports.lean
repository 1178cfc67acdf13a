import Mathlib
import KeyEngine.Proofs.KeysDown
import KeyEngine.Proofs.Notes

/-!
# What observers of keys see

The observers are told of every key that goes down or up, with the action that its press resolved to.
`Journal.Paired` says that a release follows each press of a key at once and reports the action of that
press. The engine keeps to it because a report is made only where a key is entered among those that are
down or removed from them, and nothing changes the action that was entered: settling a key and even a
cancel change what its release has to undo, and nothing else.
-/

namespace KeyEngine

/-- A key of the layer above goes down, and the layer goes off; everything is cancelled before the key goes
down once more, which is ignored, and goes up. Then it goes down on the base layer. -/
def Call.acrossCancel : List Call :=
  [.down 4 0, .up 4 10, .down 1 20, .cancel, .down 1 25, .up 1 30, .down 1 40]

/-- What a signal reports of a key: its action, and whether it went down. -/
def Signal.report? (key : Key) : Signal → Option (Action × Bool)
  | .key other action pressed => if other = key then some (action, pressed) else none
  | _ => none

namespace Journal

variable {key : Key} {told : List (Action × Bool)}

/-- What the observers were told of a key, in order. -/
def reports (key : Key) (journal : Journal) : List (Action × Bool) :=
  journal.toList.filterMap (Signal.report? key)

/-- Reports of presses and releases in pairs, both with the same action; of the last pair the release may
still be to come. -/
inductive Paired : List (Action × Bool) → Option Action → Prop where
  /-- Nothing was reported. -/
  | nil : Paired [] none
  /-- A press after complete pairs. -/
  | press {before : List (Action × Bool)} (pairs : Paired before none) (action : Action) :
      Paired (before ++ [(action, true)]) (some action)
  /-- The release that belongs to the last press. -/
  | release {before : List (Action × Bool)} {action : Action} (pairs : Paired before (some action)) :
      Paired (before ++ [(action, false)]) none

namespace Paired

variable {last : Option Action}

/-- The last report is the press whose release is still to come, if there is one. -/
theorem getLast?_eq_iff (pairs : Paired told last) {action : Action} :
    told.getLast? = some (action, true) ↔ last = some action := by
  cases pairs with
  | nil => simp
  | press => simp
  | release => simp

/-- Presses and releases take turns, and a press comes first. -/
theorem alternates (pairs : Paired told last) :
    Edges.Alternates (told.map (·.2)) ∧ Edges.endsOn (told.map (·.2)) = last.isSome := by
  induction pairs with
  | nil => exact ⟨Edges.alternates_nil, rfl⟩
  | press _ action ih =>
    rw [List.map_append]
    exact ⟨Edges.alternates_concat.2 ⟨ih.1, by rw [ih.2]; rfl⟩, Edges.endsOn_concat _ _⟩
  | release _ ih =>
    rw [List.map_append]
    exact ⟨Edges.alternates_concat.2 ⟨ih.1, by rw [ih.2]; rfl⟩, Edges.endsOn_concat _ _⟩

/-- A release comes right after a press with the same action. -/
theorem release_matches (pairs : Paired told last) {before later : List (Action × Bool)}
    {action : Action} (split : told = before ++ (action, false) :: later) :
    before.getLast? = some (action, true) := by
  induction pairs generalizing later with
  | nil => simp at split
  | @press earlier _ other ih =>
    rcases List.eq_nil_or_concat later with rfl | ⟨more, final, rfl⟩
    · have ends := congrArg List.getLast? split
      simp at ends
    · have longer : earlier ++ [(other, true)] = (before ++ (action, false) :: more) ++ [final] := by
        simpa using split
      exact ih (List.append_inj_left' longer rfl)
  | @release earlier other pairs ih =>
    rcases List.eq_nil_or_concat later with rfl | ⟨more, final, rfl⟩
    · obtain ⟨rfl, same⟩ := List.append_inj' split rfl
      obtain rfl : other = action := by simpa using same
      exact pairs.getLast?_eq_iff.2 rfl
    · have longer : earlier ++ [(other, false)] = (before ++ (action, false) :: more) ++ [final] := by
        simpa using split
      exact ih (List.append_inj_left' longer rfl)

end Paired

/-- What is reported of a key is read off the engine's own notes. -/
theorem reports_eq (journal : Journal) :
    journal.reports key = journal.own.filterMap (Signal.report? key) := by
  refine (filterMap_own (fun signal silent => ?_) journal).symm
  cases signal with
  | key other action pressed => cases silent
  | _ => rfl

/-- What more notes report of a key. -/
theorem reports_of_own {journal next : Journal} {notes : List Signal}
    (noted : next.own = journal.own ++ notes) :
    next.reports key = journal.reports key ++ notes.filterMap (Signal.report? key) := by
  rw [reports_eq, noted, List.filterMap_append, ← reports_eq]

end Journal

namespace Engine

variable {p : Profile} {s : Engine} {key : Key}

/-- The action of a key that is down. -/
def downAction? (s : Engine) (key : Key) : Option Action := (s.active.find? key).map (·.action)

/-- A cancel leaves every key that is down its action. -/
theorem downAction?_makeInert (active : ActiveKeys) :
    (active.makeInert.find? key).map (·.action) = (active.find? key).map (·.action) := by
  rw [ActiveKeys.find?_makeInert, Option.map_map]
  rfl

/-- A key that changes its state keeps its action. -/
theorem downAction?_setState (active : ActiveKeys) (other : Key) (state : KeyState) :
    ((active.setState other state).find? key).map (·.action) = (active.find? key).map (·.action) := by
  rw [ActiveKeys.find?_setState, Option.map_map]
  congr 1
  funext entry
  simp only [Function.comp]
  split <;> rfl

/-- The press of an action leaves the actions of the keys that are down as they are. -/
theorem downAction?_perform (event : KeyEvent) (action : Action) (s : Engine) :
    (s.perform p event action).2.downAction? key = s.downAction? key := by
  have spec := perform_spec p event action s
  generalize s.perform p event action = result at spec ⊢
  cases spec with
  | acted _ _ _ active => rw [downAction?, active, downAction?]
  | waits => rfl
  | cancelled => exact downAction?_makeInert s.active

/-- What is reported of a key agrees with whether it is down, and with which action. -/
def Reported (key : Key) (s : Engine) : Prop :=
  Journal.Paired (s.journal.reports key) (s.downAction? key)

namespace Reported

/-- Notes that report nothing of the key change nothing. -/
theorem congr (reported : s.Reported key) {next : Engine} {notes : List Signal}
    (noted : next.journal.own = s.journal.own ++ notes)
    (silent : notes.filterMap (Signal.report? key) = [])
    (down : next.downAction? key = s.downAction? key) : next.Reported key := by
  rw [Reported, Journal.reports_of_own noted, silent, List.append_nil, down]
  exact reported

/-- Where the engine notes nothing, nothing is reported. -/
theorem rests (reported : s.Reported key) {next : Engine} (still : next.journal.own = s.journal.own)
    (down : next.downAction? key = s.downAction? key) : next.Reported key := by
  have noted : next.journal.own = s.journal.own ++ [] := still.trans (List.append_nil _).symm
  exact reported.congr noted rfl down

/-- A press leaves the reports in pairs: of its key one is opened, unless it was down. -/
theorem press (reported : s.Reported key) {event : KeyEvent} (pressed : event.pressed = true) :
    (s.press p event).Reported key := by
  have noted := own_press p s pressed
  rw [outcome, if_pos pressed] at noted
  cases up : s.active.contains event.key with
  | true =>
    rw [press_of_down up] at noted ⊢
    rw [up, if_pos rfl] at noted
    exact reported.congr noted rfl rfl
  | false =>
    rw [up, if_neg Bool.false_ne_true] at noted
    have others : (s.performed p event).2.downAction? key = s.downAction? key :=
      downAction?_perform event _ (s.readied event)
    have entered : (s.press p event).downAction? key =
        if key = event.key then some (s.resolve p event.key) else s.downAction? key := by
      rw [press_of_up up, downAction?, ActiveKeys.find?_insert, ← others]
      split <;> rfl
    by_cases same : key = event.key
    · subst same
      have free : s.downAction? event.key = none := by
        rw [downAction?, ActiveKeys.contains_eq_false_iff.1 up]
        rfl
      rw [Reported, Journal.reports_of_own noted, entered, if_pos rfl]
      rw [Reported, free] at reported
      simpa [Signal.report?] using reported.press (s.resolve p event.key)
    · exact reported.congr noted (by simp [Signal.report?, Ne.symm same]) (by rw [entered, if_neg same])

/-- A release leaves the reports in pairs: that of its key is closed, if it was down. -/
theorem release (reported : s.Reported key) {event : KeyEvent} (released : event.pressed = false) :
    (s.release p event).Reported key := by
  have noted := own_release p s released
  rw [outcome, if_neg (Bool.eq_false_iff.1 released)] at noted
  cases found : s.active.find? event.key with
  | none =>
    rw [release_of_up found] at noted ⊢
    rw [found] at noted
    exact reported.congr noted rfl rfl
  | some entry =>
    rw [found] at noted
    have removed : (s.release p event).downAction? key =
        if key = event.key then none else s.downAction? key := by
      rw [release_of_down found]
      show ((undo p event entry _).active.find? key).map _ = _
      rw [active_undo, ActiveKeys.find?_remove]
      split <;> rfl
    by_cases same : key = event.key
    · subst same
      have down : s.downAction? event.key = some entry.action := by
        rw [downAction?, found]
        rfl
      rw [Reported, Journal.reports_of_own noted, removed, if_pos rfl]
      rw [Reported, down] at reported
      simpa [Signal.report?] using reported.release
    · exact reported.congr noted (by simp [Signal.report?, Ne.symm same]) (by rw [removed, if_neg same])

/-- Acting on an event leaves the reports in pairs. -/
theorem dispatch (reported : s.Reported key) (event : KeyEvent) : (s.dispatch p event).Reported key := by
  have noted : (s.announce (.dispatched event)).Reported key :=
    reported.congr (own_announce s rfl) rfl rfl
  unfold Engine.dispatch
  dsimp only
  split
  · rename_i pressed
    exact noted.press pressed
  · rename_i released
    exact noted.release (Bool.eq_false_iff.2 released)

end Reported

/-- Nothing that the engine does ends the agreement. -/
theorem reported_lasting (p : Profile) (key : Key) : Lasting p (Reported key) where
  dispatch _ event _ reported := reported.dispatch event
  settled s decision head _ reported :=
    reported.congr (own_settled p s decision head) rfl <| by
      rw [downAction?, active_settled, downAction?_setState, downAction?]
  keptBack _ _ _ _ _ reported := reported
  warn s warning reported := by
    have silent : (s.warn warning).journal.reports key = s.journal.reports key := by
      show Journal.reports key (s.holdings.journal.push (.warning warning)) = _
      simp [Journal.reports, Signal.report?, Engine.journal]
    rw [Reported, silent]
    exact reported
  elapse s now reported := reported.rests (own_elapse p s now) rfl
  cancel s reported := reported.rests (own_cancel p s) (downAction?_makeInert s.active)

/-- Observers see matched pairs. After every run of calls, the presses and releases that were reported of
a key take turns, a press first; each release comes right after a press with the same action; and the press
whose release is still to come is that of the action with which the key is down. -/
theorem reports_matched (p : Profile) (calls : List Call) (key : Key) :
    Edges.Alternates (((after p calls).journal.reports key).map (·.2)) ∧
    (∀ before action later,
      (after p calls).journal.reports key = before ++ (action, false) :: later →
        before.getLast? = some (action, true)) ∧
    ∀ action, ((after p calls).journal.reports key).getLast? = some (action, true) ↔
      (after p calls).downAction? key = some action := by
  have paired : (after p calls).Reported key := (reported_lasting p key).after .nil calls
  exact ⟨paired.alternates.1, fun _ _ _ => paired.release_matches, fun _ => paired.getLast?_eq_iff⟩

set_option maxRecDepth 10000 in
/-- The release reports what the layer above said of the key, though the layer was off by then and a cancel
came in between; the press after it reports what the base layer says. -/
theorem reports_matched_across_cancel :
    (after .mixed Call.acrossCancel).journal.reports ⟨1⟩ =
      [(.plain (.ofCode .c), true)] ++ (.plain (.ofCode .c), false) :: [(.plain (.ofCode .b), true)] ∧
    [(Action.plain (.ofCode .c), true)].getLast? = some (.plain (.ofCode .c), true) ∧
    (after .mixed Call.acrossCancel).downAction? ⟨1⟩ = some (.plain (.ofCode .b)) := by
  have reports : (after .mixed Call.acrossCancel).journal.reports ⟨1⟩ =
      [(.plain (.ofCode .c), true)] ++ (.plain (.ofCode .c), false) ::
        [(.plain (.ofCode .b), true)] := by cbv
  obtain ⟨-, releases, last⟩ := reports_matched .mixed Call.acrossCancel ⟨1⟩
  refine ⟨reports, releases _ _ _ reports, (last _).1 ?_⟩
  rw [reports]
  rfl

end Engine

end KeyEngine
