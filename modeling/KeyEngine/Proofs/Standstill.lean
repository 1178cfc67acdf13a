import KeyEngine.Proofs.NextKey

/-!
# What a cancel leaves behind

A cancel switches the layers off, releases every code and drops every modifier, one after the other, while
the modifiers of layers come and go in between. Whatever was on before, the engine is then at a
standstill: nothing is on, nothing waits, no timer runs, and no key that is down has anything to take
back. A standstill ends with a press only. `cancel_brings_standstill` puts the two together.
-/

namespace KeyEngine

namespace Call

/-- On the small keyboard, the layer is held, its stroke is down, and the first key waits once more. -/
def nestedWaiting : List Call := Call.nestedAgain ++ [.up 0 50, .down 0 60]

/-- What may follow a cancel on the small keyboard: time passes, and the keys that are down go up. -/
def letGo : List Call := [.tick (.ofWord 300), .up 2 310, .up 1 320, .tick (.ofWord 900), .up 0 1000]

end Call

namespace Holdings

variable (h : Holdings) (lm : LayerModifiers)

/-- A cancel takes back layers and modifiers, then it releases every code, and then it takes back what
modifiers are left. -/
theorem stream_releaseEverything : ∃ off left : List HostEvent,
    (h.releaseEverything lm).journal.stream =
      h.journal.stream ++ off ++ h.register.registered.map .release ++ left ∧
    (∀ event ∈ off, event.takesBack = true) ∧ ∀ event ∈ left, event.takesBack = true := by
  have switched (ids : List LayerId) (h : Holdings) :
      TakesBack h (ids.foldl (fun h id => h.layerChanged lm id false) h) ∧
        (ids.foldl (fun h id => h.layerChanged lm id false) h).register = h.register := by
    induction ids generalizing h with
    | nil => exact ⟨.of_stream rfl, rfl⟩
    | cons id rest ih =>
      obtain ⟨later, kept⟩ := ih (h.layerChanged lm id false)
      exact ⟨(TakesBack.layerChanged h lm id).trans later, kept.trans (register_layerChanged h lm id false)⟩
  obtain ⟨⟨off, told, only⟩, kept⟩ := switched h.layers.activeIds { h with layers := .empty }
  unfold releaseEverything
  dsimp only [LayerStack.clear]
  generalize h.layers.activeIds.foldl (fun h id => h.layerChanged lm id false)
    { h with layers := .empty } = bare at told kept ⊢
  obtain ⟨left, last, only'⟩ :=
    TakesBack.sync ((bare.mapModifiers fun _ => .empty).mapRegister Register.releaseAll)
  refine ⟨off, left, ?_, only, only'⟩
  rw [last, stream_mapRegister, register_mapModifiers, kept, Register.releaseAll]
  show bare.journal.stream ++ _ ++ _ = _
  rw [told]

/-- Where no layer is on and no code is down, and the host was told of no modifier, a cancel has nothing
to say. -/
theorem stream_releaseEverything_of_bare {h : Holdings} {lm : LayerModifiers}
    (layers : h.layers = .empty) (codes : h.register.registered = []) (sent : h.sent = ∅) :
    (h.releaseEverything lm).journal.stream = h.journal.stream := by
  have none : h.layers.activeIds = [] := by rw [layers, LayerStack.activeIds_empty]
  unfold releaseEverything
  simp only [LayerStack.clear, none, List.foldl_nil]
  generalize same : ({ h with layers := .empty }.mapModifiers fun _ => .empty).mapRegister
    Register.releaseAll = bare
  have off : bare.effective = bare.sent := by
    have empty : ModifierState.empty.effective = ∅ := by decide
    rw [← same, sent_mapRegister, effective, modifiers_mapRegister]
    exact empty.trans sent.symm
  rw [sync, if_pos off, ← same, stream_mapRegister, Register.releaseAll]
  show h.journal.stream ++ h.register.registered.map .release = _
  rw [codes, List.map_nil, List.append_nil]

/-- A cancel presses no code and switches no layer on. -/
theorem releaseEverything_only_releases : ∃ out : List HostEvent,
    (h.releaseEverything lm).journal.stream = h.journal.stream ++ out ∧
    (∀ code, .press code ∉ out) ∧ ∀ id, .layerOn id ∉ out := by
  obtain ⟨off, left, told, first, last⟩ := h.stream_releaseEverything lm
  have absent (event : HostEvent) (gives : event.takesBack = false)
      (other : event ∉ h.register.registered.map HostEvent.release) :
      event ∉ off ++ h.register.registered.map .release ++ left := by
    simp only [List.mem_append, not_or]
    refine ⟨⟨fun member => ?_, other⟩, fun member => ?_⟩
    · exact absurd (first event member) (Bool.eq_false_iff.1 gives)
    · exact absurd (last event member) (Bool.eq_false_iff.1 gives)
  refine ⟨off ++ h.register.registered.map .release ++ left, ?_, fun code => ?_, fun id => ?_⟩
  · rw [told, List.append_assoc, List.append_assoc, List.append_assoc]
  · exact absent _ rfl (by simp)
  · exact absent _ rfl (by simp)

end Holdings

namespace OneShots

/-- Machines that are all idle have no timer that runs. -/
theorem isDue_of_idle {shots : OneShots} (settings : Settings) (now : Millis)
    (idle : ∀ m ∈ shots.modifiers.entries.map (·.2) ++ shots.layers.entries.map (·.2), m.phase = .idle) :
    shots.isDue settings now = false := by
  have early (m : OneShot) (off : m.phase = .idle) : m.isDue settings now = false := by
    rw [OneShot.isDue, off]
  simp only [isDue, Bool.or_eq_false_iff, List.any_eq_false, Bool.not_eq_true]
  constructor
  · exact fun entry listed =>
      early _ (idle _ (List.mem_append_right _ (List.mem_map_of_mem listed)))
  · exact fun entry listed =>
      early _ (idle _ (List.mem_append_left _ (List.mem_map_of_mem listed)))

end OneShots

namespace Engine

variable {p : Profile} {s : Engine}

/-- Everything is off, the host knows it, and no key that is down has anything to take back. -/
structure Standstill (s : Engine) : Prop extends s.Cleared where
  /-- The host was told that no modifier is on. -/
  sent : s.holdings.sent = ∅
  /-- No release undoes anything. -/
  inert : ∀ key entry, s.active.find? key = some entry → entry.state = .inert

/-- A cancel brings every state to a standstill. -/
theorem standstill_cancel (p : Profile) (s : Engine) : (s.cancel p).Standstill where
  toCleared := cleared_cancel p s
  sent := by
    have told : (s.cancel p).holdings.sent = (s.cancel p).modifiers := Holdings.synced_sync _
    rw [told]
    exact (cleared_cancel p s).modifiers
  inert _ _ found := RedeemedBy.inert_makeInert found

namespace Standstill

/-- Notes of the engine do not end a standstill. -/
theorem noted (still : s.Standstill) (signal : Signal) : (s.announce signal).Standstill where
  toCleared := still.toCleared.noted signal s.active
  sent := still.sent
  inert := still.inert

/-- Neither does a key that is forgotten. -/
theorem forget (still : s.Standstill) (key : Key) :
    { s with active := s.active.remove key }.Standstill where
  toCleared := ⟨still.free, still.layers, still.modifiers, still.codes, still.oneShots⟩
  sent := still.sent
  inert other entry found := by
    rw [ActiveKeys.find?_remove] at found
    split at found
    · cases found
    · exact still.inert other entry found

/-- Time changes nothing at a standstill. -/
theorem tick (still : s.Standstill) (now : Millis) : s.tick p now = s := by
  have settled : s.run p [.expire now] = s := by
    refine run_expire_of_early ?_
    rw [TapHold.isDue, head_of_free still.free]
    rfl
  have early := OneShots.isDue_of_idle p.settings now still.oneShots
  rw [Engine.tick, settled]
  exact elapse_of_early early

/-- A release forgets its key at most. -/
theorem release (still : s.Standstill) (event : KeyEvent) :
    (s.release p event).Standstill ∧ (s.release p event).journal.stream = s.journal.stream := by
  cases found : s.active.find? event.key with
  | none =>
    rw [release_of_up found]
    exact ⟨still.noted _, (Holdings.stream_announce _ _).trans (List.append_nil _)⟩
  | some entry =>
    have nothing : { s with active := s.active.remove event.key }.undo p event entry =
        { s with active := s.active.remove event.key } := by
      rw [undo, still.inert _ _ found]
    rw [release_of_down found, nothing]
    exact ⟨(still.forget event.key).noted _, (Holdings.stream_announce _ _).trans (List.append_nil _)⟩

/-- A call that presses no key changes nothing that the host could notice. -/
theorem answer (still : s.Standstill) {call : Call}
    (up : ∀ event ∈ Call.events [call], event.pressed = false) :
    (s.answer p call).Standstill ∧ (s.answer p call).journal.stream = s.journal.stream := by
  cases call with
  | tick now =>
    have same : s.answer p (.tick now) = s := still.tick now
    rw [same]
    exact ⟨still, rfl⟩
  | cancel => exact ⟨standstill_cancel p s, Holdings.stream_releaseEverything_of_bare
      still.layers still.codes still.sent⟩
  | event event =>
    have released : event.pressed = false := up event (List.mem_singleton_self event)
    have acted : s.answer p (.event event) = s.dispatch p event := by
      show (s.tick p event.time).run p [.feed event] = _
      rw [still.tick, run_cons, step_feed_of_actsOn (actsOn_of_idle (head_of_free still.free)),
        List.nil_append, run_nil]
    have rest := (still.noted (.dispatched event)).release (p := p) event
    have told : (s.announce (.dispatched event)).journal.stream = s.journal.stream :=
      (Holdings.stream_announce _ _).trans (List.append_nil _)
    rw [acted, dispatch, if_neg (Bool.eq_false_iff.1 released)]
    exact ⟨rest.1, rest.2.trans told⟩

/-- So do any calls that press no key. -/
theorem answers (still : s.Standstill) {calls : List Call}
    (up : ∀ event ∈ Call.events calls, event.pressed = false) :
    (calls.foldl (Engine.answer p) s).Standstill ∧
      (calls.foldl (Engine.answer p) s).journal.stream = s.journal.stream := by
  induction calls generalizing s with
  | nil => exact ⟨still, rfl⟩
  | cons call rest ih =>
    rw [Call.events_cons] at up
    obtain ⟨first, told⟩ := still.answer (p := p) fun event member => up event (List.mem_append_left _ member)
    obtain ⟨last, same⟩ := ih first fun event member => up event (List.mem_append_right _ member)
    exact ⟨last, same.trans told⟩

end Standstill

/-- A cancel releases everything, and what is still down stays inert. After every run of calls and a
cancel: no key waits, no layer and no modifier is on, every one-shot is idle, no code is registered, the
host sees no code down and was told last that no modifier is on; the cancel itself pressed no code and
switched no layer on; and whatever calls follow, as long as none of them presses a key, the host is told
nothing more, and no modifier and no layer goes on. -/
theorem cancel_brings_standstill (p : Profile) (calls : List Call) :
    let s := after p (calls ++ [.cancel])
    s.Cleared ∧ HostEvent.pressed s.journal.stream = [] ∧
    HostEvent.lastModifiers s.journal.stream = ∅ ∧
    (∃ out, s.journal.stream = (after p calls).journal.stream ++ out ∧
      (∀ code, .press code ∉ out) ∧ ∀ id, .layerOn id ∉ out) ∧
    ∀ later : List Call, (∀ event ∈ Call.events later, event.pressed = false) →
      let t := after p (calls ++ .cancel :: later)
      t.journal.stream = s.journal.stream ∧ t.modifiers = ∅ ∧ t.holdings.layers = .empty := by
  intro s
  have cancels : s = (after p calls).cancel p := List.foldl_append
  have still : s.Standstill := cancels ▸ standstill_cancel p (after p calls)
  obtain ⟨-, -, -, -, -, codes, -, told⟩ := stream_mirrors_keyboard p (calls ++ [.cancel])
  refine ⟨still.toCleared, ?_, told.trans still.modifiers, ?_, fun later up => ?_⟩
  · rw [still.codes] at codes
    exact codes.eq_nil
  · rw [cancels]
    exact Holdings.releaseEverything_only_releases _ _
  · intro t
    have goes : t = later.foldl (answer p) s := by
      show after p (calls ++ ([.cancel] ++ later)) = _
      rw [← List.append_assoc]
      exact List.foldl_append
    rw [goes]
    obtain ⟨stays, same⟩ := still.answers (p := p) up
    exact ⟨same, stays.modifiers, stays.layers⟩

set_option maxRecDepth 10000 in
/-- A cancel finds a key that waits, a layer that is held with its modifier, and a stroke that is down. The
host is told that layer, modifier and stroke are off, and then nothing more. -/
theorem cancel_brings_standstill_waiting :
    (after .sample Call.nestedWaiting).isPending = true ∧
    (after .sample Call.nestedWaiting).holdings.layers.activeIds = [1] ∧
    (after .sample Call.nestedWaiting).holdings.register.registered = [.d] ∧
    (after .sample (Call.nestedWaiting ++ [.cancel])).Cleared ∧
    (∀ event ∈ Call.events Call.letGo, event.pressed = false) ∧
    (after .sample (Call.nestedWaiting ++ .cancel :: Call.letGo)).journal.stream =
      (after .sample Call.nestedWaiting).journal.stream ++
        [.layerOff 1, .modifiers ∅, .release .d] := by
  have up : ∀ event ∈ Call.events Call.letGo, event.pressed = false := by decide
  obtain ⟨cleared, -, -, -, after⟩ := cancel_brings_standstill .sample Call.nestedWaiting
  refine ⟨by cbv, by cbv, by cbv, cleared, up, ?_⟩
  rw [(after Call.letGo up).1]
  cbv

end Engine

end KeyEngine
