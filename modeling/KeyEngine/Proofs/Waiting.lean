import KeyEngine.Proofs.Acts

/-!
# The waiting key and the keys that are down

The engine notes twice that a tap-hold key waits: as the head, with the events kept back behind it, and
as the state of a key that is down. `Consistent` says that the two notes agree and that nothing of the
waiting key itself is kept back; `consistent_lasting` says that they agree throughout every run.
-/

namespace KeyEngine

namespace Engine

/-- What is noted of the waiting key agrees. -/
structure Consistent (s : Engine) : Prop where
  /-- The waiting key is down and waits. -/
  down : ∀ head, s.tapHold.head = some head →
    s.active.find? head.key = some ⟨head.action, .pending head.since⟩
  /-- The waiting key has a tap-hold action. -/
  dual : ∀ head, s.tapHold.head = some head → ∃ tap, head.action.tap? = some tap
  /-- Only events of other keys are kept back. -/
  others : ∀ head, s.tapHold.head = some head → ∀ event ∈ head.buffer, event.key ≠ head.key
  /-- No other key waits. -/
  only : ∀ key action since, s.active.find? key = some ⟨action, .pending since⟩ →
    ∃ head, s.tapHold.head = some head ∧ head.key = key

namespace Consistent

variable {p : Profile} {s : Engine}

/-- What is noted of the waiting key agrees where the same key waits and the same keys are down. -/
theorem congr {next : Engine} (consistent : s.Consistent)
    (head : next.tapHold.head = s.tapHold.head) (active : next.active = s.active) :
    next.Consistent where
  down found waiting := active ▸ consistent.down found (head ▸ waiting)
  dual found waiting := consistent.dual found (head ▸ waiting)
  others found waiting := consistent.others found (head ▸ waiting)
  only key action since down := by
    rw [head]
    exact consistent.only key action since (active ▸ down)

/-- Where nothing waits, nothing is to be said but that no key waits. -/
theorem of_idle {next : Engine} (idle : next.tapHold.head = none)
    (none : ∀ key action since, next.active.find? key ≠ some ⟨action, .pending since⟩) :
    next.Consistent where
  down head waiting := by rw [idle] at waiting; cases waiting
  dual head waiting := by rw [idle] at waiting; cases waiting
  others head waiting := by rw [idle] at waiting; cases waiting
  only key action since down := absurd down (none key action since)

/-- If nothing waits, no key that is down does. -/
theorem none_pending (consistent : s.Consistent) (idle : s.tapHold.head = none) (key : Key)
    (action : Action) (since : Millis) : s.active.find? key ≠ some ⟨action, .pending since⟩ := by
  intro down
  obtain ⟨head, waiting, -⟩ := consistent.only key action since down
  rw [idle] at waiting
  cases waiting

/-- Only a press that means cancel is acted on while a key waits. -/
theorem idle_of_actsOn {event : KeyEvent} (acts : s.ActsOn p event)
    (goes : s.resolve p event.key ≠ .cancel) : s.tapHold.head = none := by
  cases waiting : s.tapHold.head with
  | none => rfl
  | some head => exact absurd (acts head waiting).2.2 goes

/-- A release is acted on only while no key waits. -/
theorem idle_of_released {event : KeyEvent} (acts : s.ActsOn p event)
    (released : event.pressed = false) : s.tapHold.head = none := by
  cases waiting : s.tapHold.head with
  | none => rfl
  | some head =>
    have pressed := (acts head waiting).2.1
    rw [released] at pressed
    cases pressed

/-- A press leaves the notes of the waiting key in agreement, of the key that it makes wait too. -/
theorem press (consistent : s.Consistent) {event : KeyEvent} (acts : s.ActsOn p event) :
    (s.press p event).Consistent := by
  cases up : s.active.contains event.key with
  | true =>
    rw [press_of_down up]
    exact consistent.congr rfl rfl
  | false =>
    rw [press_of_up up]
    have spec := perform_spec p event (s.resolve p event.key) (s.readied event)
    change Performed p event _ _ (s.performed p event) at spec
    generalize s.performed p event = result at spec ⊢
    cases spec with
    | @acted state next goes settled tapHold active =>
      have idle := idle_of_actsOn acts goes
      have still : next.tapHold.head = none := by
        rw [tapHold]
        exact idle
      refine of_idle still fun key action since => ?_
      simp only [active, readied, ActiveKeys.find?_insert]
      split
      · simpa using fun _ => settled since
      · exact consistent.none_pending idle key action since
    | waits dual =>
      have goes : s.resolve p event.key ≠ .cancel := by
        intro cancels
        rw [cancels] at dual
        cases dual
      have idle := idle_of_actsOn acts goes
      constructor
      · rintro head ⟨⟩
        simp [PendingKey.new]
      · rintro head ⟨⟩
        exact ⟨_, dual⟩
      · rintro head ⟨⟩ kept ⟨⟩
      · intro key action since down
        simp only [readied, ActiveKeys.find?_insert] at down
        split at down
        · rename_i same
          exact ⟨_, rfl, same.symm⟩
        · exact absurd down (consistent.none_pending idle key action since)
    | cancelled =>
      refine of_idle rfl fun key action since => ?_
      simp only [Engine.cancel, readied, ActiveKeys.find?_insert, ActiveKeys.find?_makeInert]
      split
      · simp
      · cases s.active.find? key <;> simp

/-- A release leaves the notes of the waiting key in agreement, for there is none. -/
theorem release (consistent : s.Consistent) {event : KeyEvent} (idle : s.tapHold.head = none) :
    (s.release p event).Consistent := by
  cases down : s.active.find? event.key with
  | none =>
    rw [release_of_up down]
    exact consistent.congr rfl rfl
  | some entry =>
    rw [release_of_down down]
    have still : (({ s with active := s.active.remove event.key }.undo p event entry).announce
        (.key event.key entry.action false)).tapHold.head = none :=
      (head_undo p event entry _).trans idle
    refine of_idle still fun key action since => ?_
    simp only [announce, mapHoldings, active_undo, ActiveKeys.find?_remove]
    split
    · simp
    · exact consistent.none_pending idle key action since

/-- After the waiting key was settled, none is noted. -/
theorem settled (consistent : s.Consistent) {head : PendingKey} (decision : Decision)
    (waiting : s.tapHold.head = some head) : (s.settled p decision head).Consistent := by
  refine of_idle (by rw [tapHold_settled]; rfl) fun key action since => ?_
  rw [active_settled, ActiveKeys.find?_setState]
  cases down : s.active.find? key with
  | none => simp
  | some entry =>
    obtain ⟨action', state⟩ := entry
    by_cases same : key = head.key
    · simpa [same] using fun _ => decision.state_ne_pending since
    · simp only [same, if_false, Option.map_some, ne_eq, Option.some.injEq, ActiveKey.mk.injEq]
      rintro ⟨rfl, rfl⟩
      obtain ⟨other, waiting', rfl⟩ := consistent.only key _ _ down
      exact same (by rw [Option.some.inj (waiting.symm.trans waiting')])

/-- An event of another key that is kept back leaves the notes of the waiting key in agreement. -/
theorem keptBack (consistent : s.Consistent) {head : PendingKey} {event : KeyEvent}
    (waiting : s.tapHold.head = some head) (other : head.key ≠ event.key) :
    (s.keptBack head event).Consistent where
  down := by
    rintro _ ⟨⟩
    exact consistent.down head waiting
  dual := by
    rintro _ ⟨⟩
    exact consistent.dual head waiting
  others := by
    rintro _ ⟨⟩ kept member
    rcases List.mem_append.1 member with earlier | last
    · exact consistent.others head waiting kept earlier
    · rw [List.mem_singleton.1 last]
      exact Ne.symm other
  only key action since down := by
    obtain ⟨found, waiting', same⟩ := consistent.only key action since down
    obtain rfl := Option.some.inj (waiting.symm.trans waiting')
    exact ⟨_, rfl, same⟩

/-- A cancel leaves no key that waits. -/
theorem cancel (s : Engine) : (s.cancel p).Consistent := by
  refine of_idle rfl fun key action since => ?_
  simp only [Engine.cancel, ActiveKeys.find?_makeInert]
  cases s.active.find? key <;> simp

end Consistent

/-- The notes of the waiting key agree for ever. -/
theorem consistent_lasting (p : Profile) : Lasting p Consistent where
  dispatch s event acts consistent := by
    have noted : (s.announce (.dispatched event)).Consistent := consistent.congr rfl rfl
    unfold dispatch
    dsimp only
    split
    · exact noted.press acts
    · rename_i released
      exact noted.release (Consistent.idle_of_released acts (Bool.eq_false_iff.2 released))
  settled _ decision _ waiting consistent := consistent.settled decision waiting
  keptBack _ _ _ waiting other consistent := consistent.keptBack waiting other
  warn _ _ consistent := consistent.congr rfl rfl
  elapse _ _ consistent := consistent.congr rfl rfl
  cancel s _ := .cancel s

/-- At the start no key waits. -/
theorem consistent_start : start.Consistent :=
  .of_idle rfl fun key action since => by simp [start]

end Engine

end KeyEngine
