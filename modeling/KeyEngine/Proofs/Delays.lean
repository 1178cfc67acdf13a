import Mathlib
import KeyEngine.Proofs.Clocks

/-!
# Only differences of time matter

If every call is made later by the same length of time, everything else stays as it was. Both runs are one
run by two clocks, of which one is ahead of the other: as much passes between two moments, and a deadline
comes at the same moment, as long as no deadline is cut off at the end of the clock.
-/

namespace KeyEngine

/-- The keys that waited go up, and the second one goes down once more. -/
def Call.nestedOnceMore : List Call := Call.nestedUp ++ [.down 1 70]

/-- The longest time that the engine waits for anything. -/
def Settings.longest (settings : Settings) : Nat :=
  max settings.tappingTerm.count settings.oneShotTimeout.count

namespace Clocks

variable {settings : Settings} {lead t u t' u' : Millis}

/-- A moment on a clock, and the same moment on one that is ahead of it. -/
def Ahead (lead t u : Millis) : Prop := u.count = t.count + lead.count

/-- The same up to where a deadline of the clock that is ahead would not fit. -/
def AheadNow (settings : Settings) (lead t u : Millis) : Prop :=
  Ahead lead t u ∧ u.count + settings.longest < UInt64.size

/-- As much passes between two moments on the clock that is ahead. -/
theorem ahead_since (now : AheadNow settings lead t u) (earlier : AheadNow settings lead t' u') :
    u.since u' = t.since t' := by
  obtain ⟨now, -⟩ := now
  obtain ⟨earlier, -⟩ := earlier
  unfold Ahead at now earlier
  ext
  simp only [Millis.count_since]
  omega

/-- A deadline comes at the same moment on the clock that is ahead. -/
theorem ahead_isDue (deadline : Ahead lead t u) (now : AheadNow settings lead t' u') :
    u.isDue u' = t.isDue t' := by
  obtain ⟨now, -⟩ := now
  unfold Ahead at deadline now
  simp only [Millis.isDue, Millis.le_def, decide_eq_decide]
  omega

/-- A deadline that is not longer off than any is the same moment on both clocks. -/
theorem ahead_after {wait : Millis} (short : wait.count ≤ settings.longest)
    (now : AheadNow settings lead t u) : Ahead lead (t.after wait) (u.after wait) := by
  obtain ⟨now, room⟩ := now
  unfold Ahead at now ⊢
  simp only [Millis.count_after]
  omega

/-- A clock, and one that is ahead of it. -/
def ahead (settings : Settings) (lead : Millis) : Clocks settings where
  now := AheadNow settings lead
  deadline := Ahead lead
  since := ahead_since
  isDue := ahead_isDue
  term := ahead_after (Nat.le_max_left _ _)
  timeout := ahead_after (Nat.le_max_right _ _)

/-- A moment is read later on the clock that is ahead. -/
theorem now_ahead {t : Millis} (fits : t.count + lead.count + settings.longest < UInt64.size) :
    (ahead settings lead).now t (t.after lead) := by
  have few : t.count + lead.count < UInt64.size := by omega
  have shifted : (t.after lead).count = t.count + lead.count := by
    rw [Millis.count_after]
    omega
  exact ⟨shifted, shifted ▸ fits⟩

end Clocks

namespace Call

/-- The same call, made later by a length of time. -/
def later (lead : Millis) : Call → Call
  | .event arriving => .event { arriving with time := arriving.time.after lead }
  | .tick now => .tick (now.after lead)
  | .cancel => .cancel

/-- A call that is made later is the same one by the clock that is ahead. -/
theorem later_ahead {settings : Settings} {lead : Millis} {call : Call}
    (fits : ∀ t ∈ call.time?, t.count + lead.count + settings.longest < UInt64.size) :
    (Clocks.ahead settings lead).SameCall call (call.later lead) := by
  cases call with
  | event arriving => exact .event ⟨rfl, rfl, Clocks.now_ahead (fits _ rfl)⟩
  | tick now => exact .tick (Clocks.now_ahead (fits _ rfl))
  | cancel => exact .cancel

end Call

namespace Engine

variable {p : Profile}

/-- What the host is told in the answer to each of several calls. -/
def toldEach (p : Profile) (s : Engine) : List Call → List (List HostEvent)
  | [] => []
  | call :: rest =>
    (s.drained.answer p call).journal.stream :: toldEach p (s.drained.answer p call) rest

namespace InStep

variable {c : Clocks p.settings} {s t : Engine}

/-- What was told before does not matter. -/
theorem drained (inStep : InStep c s t) : InStep c s.drained t.drained where
  same := by
    refine ⟨?_, rfl⟩
    show { t.holdings with journal := #[] } = Holdings.withJournal { s.holdings with journal := #[] } #[]
    rw [inStep.same.parts]
    rfl
  tapHold := inStep.tapHold
  oneShots := inStep.oneShots
  active := inStep.active

/-- Every answer tells the host the same by both clocks. -/
theorem toldEach (inStep : InStep c s t) {calls calls' : List Call}
    (same : List.Forall₂ c.SameCall calls calls') : t.toldEach p calls' = s.toldEach p calls := by
  induction same generalizing s t with
  | nil => rfl
  | cons call _ ih =>
    have next := inStep.drained.answer call
    rw [Engine.toldEach, Engine.toldEach, ih next]
    exact congrArg (· :: _) next.same.stream

end InStep

/-- Only differences of time matter. If all calls are made later by the same length of time, and the
longest wait from there on still fits, every single call is answered with what the host was told before;
and in the end the same layers and modifiers are on, the same codes are registered, the host was told the
same modifiers last, and the same key waits. -/
theorem later_alike (p : Profile) (calls : List Call) (lead : Millis)
    (fits : ∀ call ∈ calls, ∀ t ∈ call.time?, t.count + lead.count +
      max p.settings.tappingTerm.count p.settings.oneShotTimeout.count < UInt64.size) :
    start.toldEach p (calls.map (·.later lead)) = start.toldEach p calls ∧
    (after p (calls.map (·.later lead))).holdings.layers = (after p calls).holdings.layers ∧
    (after p (calls.map (·.later lead))).modifiers = (after p calls).modifiers ∧
    (after p (calls.map (·.later lead))).holdings.register = (after p calls).holdings.register ∧
    (after p (calls.map (·.later lead))).holdings.sent = (after p calls).holdings.sent ∧
    (after p (calls.map (·.later lead))).tapHold.head.map (fun head => (head.key, head.action)) =
      (after p calls).tapHold.head.map (fun head => (head.key, head.action)) := by
  have same : List.Forall₂ (Clocks.ahead p.settings lead).SameCall calls (calls.map (·.later lead)) := by
    rw [List.forall₂_map_right_iff, List.forall₂_same]
    exact fun call member => Call.later_ahead (fits call member)
  have inStep : InStep (Clocks.ahead p.settings lead) start start := .start
  have final : InStep _ (after p calls) (after p (calls.map (·.later lead))) := inStep.answers same
  have parts := final.same.parts
  have waiting := final.tapHold.head
  refine ⟨inStep.toldEach same, ?_, ?_, ?_, ?_, ?_⟩
  · exact (congrArg Holdings.layers parts).trans rfl
  · exact (congrArg Holdings.effective parts).trans rfl
  · exact (congrArg Holdings.register parts).trans rfl
  · exact (congrArg Holdings.sent parts).trans rfl
  · generalize (after p calls).tapHold.head = head, (after p (calls.map (·.later lead))).tapHold.head = other
      at waiting
    cases waiting with
    | none => rfl
    | some head => exact congrArg some (Prod.ext head.key head.action)

set_option maxRecDepth 10000 in
/-- Two keys are released that had waited behind each other, and one of them waits anew. All this may happen
so late that the longest wait from there on ends at the last moment of the clock. -/
theorem later_alike_nested :
    (∀ call ∈ Call.nestedOnceMore, ∀ t ∈ call.time?, t.count + (Millis.ofWord 18446744073709549545).count +
      max Profile.sample.settings.tappingTerm.count Profile.sample.settings.oneShotTimeout.count <
        UInt64.size) ∧
    start.toldEach .sample (Call.nestedOnceMore.map (·.later (.ofWord 18446744073709549545))) =
      [[], [], [], [.modifiers (.single .leftControl), .layerOn 1,
          .modifiers (.single .leftControl ∪ .single .rightAlt), .press .d, .release .d],
        [.layerOff 1, .modifiers (.single .leftControl)], [.modifiers ∅], []] ∧
    (after .sample (Call.nestedOnceMore.map (·.later (.ofWord 18446744073709549545)))).tapHold.head.map
      (fun head => (head.key, head.action)) = some (⟨1⟩, .layerTap 1 (.ofCode .b)) := by
  have fits : ∀ call ∈ Call.nestedOnceMore, ∀ t ∈ call.time?,
      t.count + (Millis.ofWord 18446744073709549545).count +
        max Profile.sample.settings.tappingTerm.count Profile.sample.settings.oneShotTimeout.count <
          UInt64.size := by
    decide
  have told : start.toldEach .sample Call.nestedOnceMore =
      [[], [], [], [.modifiers (.single .leftControl), .layerOn 1,
          .modifiers (.single .leftControl ∪ .single .rightAlt), .press .d, .release .d],
        [.layerOff 1, .modifiers (.single .leftControl)], [.modifiers ∅], []] := by cbv
  have waits : (after .sample Call.nestedOnceMore).tapHold.head.map (fun head => (head.key, head.action)) =
      some (⟨1⟩, .layerTap 1 (.ofCode .b)) := by cbv
  obtain ⟨each, -, -, -, -, waiting⟩ := later_alike .sample Call.nestedOnceMore _ fits
  exact ⟨fits, each.trans told, waiting.trans waits⟩

end Engine

end KeyEngine
