import Mathlib.Data.List.Chain
import Mathlib.Data.List.Nodup
import KeyEngine.HostEvent
import KeyEngine.Proofs.Edges

/-!
# Orderly streams

A stream of host events is orderly if every event fits what was said before it: only what is up goes
down, only what is down goes up, and the modifiers are named only when they change. The views of
`KeyEngine.HostEvent` then tell everything: in an orderly stream the edges of every code and of every
layer alternate, and what the views list as on are the things whose last edge went on.
-/

namespace KeyEngine

namespace HostEvent

/-- The edge of a code in an event. -/
def codeEdge? (code : KeyCode) : HostEvent → Option Bool
  | press other => if other = code then some true else none
  | release other => if other = code then some false else none
  | _ => none

/-- The edge of a layer in an event. -/
def layerEdge? (id : LayerId) : HostEvent → Option Bool
  | layerOn other => if other = id then some true else none
  | layerOff other => if other = id then some false else none
  | _ => none

/-- The modifiers that an event names. -/
def modifiers? : HostEvent → Option ModifierSet
  | modifiers set => some set
  | _ => none

/-- Whether an event makes sense after a stream. -/
def Fits (stream : List HostEvent) : HostEvent → Prop
  | press code => code.isModifier = false ∧ code ∉ pressed stream
  | release code => code ∈ pressed stream
  | modifiers set => lastModifiers stream ≠ set
  | layerOn id => id ≠ baseLayer ∧ id ∉ layersOn stream
  | layerOff id => id ∈ layersOn stream

/-- Every event makes sense after those before it. -/
inductive Orderly : List HostEvent → Prop where
  | nil : Orderly []
  | concat {stream : List HostEvent} {event : HostEvent} (before : Orderly stream)
      (fits : Fits stream event) : Orderly (stream ++ [event])

/-- The last event of a stream changes which codes are down after those before it. -/
theorem pressed_concat (stream : List HostEvent) (event : HostEvent) :
    pressed (stream ++ [event]) = pressedAfter (pressed stream) event := by
  simp [pressed]

/-- The last event of a stream names the modifiers, or leaves those named before it. -/
theorem lastModifiers_concat (stream : List HostEvent) (event : HostEvent) :
    lastModifiers (stream ++ [event]) = modifiersAfter (lastModifiers stream) event := by
  simp [lastModifiers]

/-- The last event of a stream changes which layers are on after those before it. -/
theorem layersOn_concat (stream : List HostEvent) (event : HostEvent) :
    layersOn (stream ++ [event]) = layersAfter (layersOn stream) event := by
  simp [layersOn]

section
variable {α : Type} [DecidableEq α]

/-- How a list of what is on changes with an event, by the edges that the event makes. -/
inductive Turn (on : List α) : (α → Option Bool) → List α → Prop where
  /-- Something goes on, and comes last. -/
  | goesOn (thing : α) : Turn on (fun other => if thing = other then some true else none) (on ++ [thing])
  /-- Something goes off. -/
  | goesOff (thing : α) :
      Turn on (fun other => if thing = other then some false else none) (on.erase thing)
  /-- Nothing goes on or off. -/
  | stays : Turn on (fun _ => none) on

namespace Turn

variable {on next : List α} {edge? : α → Option Bool}

/-- If what goes on was off, nothing is listed twice. -/
theorem nodup (turn : Turn on edge? next) (distinct : on.Nodup)
    (off : ∀ thing, edge? thing = some true → thing ∉ on) : next.Nodup := by
  cases turn with
  | goesOn thing =>
    have apart : List.Disjoint on [thing] := by simpa using off thing (if_pos rfl)
    exact distinct.append (List.nodup_singleton thing) apart
  | goesOff thing => exact distinct.erase thing
  | stays => exact distinct

/-- What is on afterwards has just gone on, or was on and has not gone off. -/
theorem mem (turn : Turn on edge? next) (distinct : on.Nodup) (thing : α) :
    thing ∈ next ↔ (thing ∈ on ∧ edge? thing ≠ some false) ∨ edge? thing = some true := by
  cases turn with
  | goesOn other => simp [eq_comm]
  | goesOff other => simp [distinct.mem_erase_iff, and_comm, eq_comm]
  | stays => simp

end Turn

/-- A view of streams lists what is on by the edges that events make. -/
structure Lists (on : List HostEvent → List α) (edge? : α → HostEvent → Option Bool) : Prop where
  /-- Nothing is on at first. -/
  starts : on [] = []
  /-- Every event turns on what goes on in it, and turns off what goes off. -/
  turn : ∀ stream event, Turn (on stream) (edge? · event) (on (stream ++ [event]))
  /-- If the event makes sense, what goes on was off and what goes off was on. -/
  fits : ∀ {stream : List HostEvent} {event : HostEvent} {thing : α} {edge : Bool},
    Fits stream event → edge? thing event = some edge → (thing ∈ on stream ↔ edge = false)

namespace Lists

variable {on : List HostEvent → List α} {edge? : α → HostEvent → Option Bool}
  {stream : List HostEvent}

/-- An orderly stream has nothing on twice. -/
theorem nodup (lists : Lists on edge?) (orderly : Orderly stream) : (on stream).Nodup := by
  induction orderly with
  | nil => exact lists.starts ▸ List.nodup_nil
  | @concat stream event _ fits ih =>
    exact (lists.turn stream event).nodup ih fun _ goes was =>
      absurd ((lists.fits fits goes).1 was) nofun

/-- After one more event, what is on is known member by member. -/
theorem mem_concat (lists : Lists on edge?) (orderly : Orderly stream) (event : HostEvent) (thing : α) :
    thing ∈ on (stream ++ [event]) ↔
      (thing ∈ on stream ∧ edge? thing event ≠ some false) ∨ edge? thing event = some true :=
  (lists.turn stream event).mem (lists.nodup orderly) thing

/-- Everything goes on and off in turns, and is on when it went on last. -/
theorem alternates (lists : Lists on edge?) (orderly : Orderly stream) (thing : α) :
    Edges.Alternates (stream.filterMap (edge? thing)) ∧
      (Edges.endsOn (stream.filterMap (edge? thing)) = true ↔ thing ∈ on stream) := by
  induction orderly with
  | nil => simp [lists.starts]
  | @concat stream event before fits ih =>
    rw [lists.mem_concat before, List.filterMap_append]
    cases goes : edge? thing event with
    | none => simpa [List.filterMap_cons, goes] using ih
    | some edge =>
      have was : Edges.endsOn (stream.filterMap (edge? thing)) = true ↔ edge = false :=
        ih.2.trans (lists.fits fits goes)
      have turns : edge = !Edges.endsOn (stream.filterMap (edge? thing)) := by
        cases edge <;> simpa using was
      cases edge <;> simp [goes, Edges.alternates_concat, ih.1, ← turns]

end Lists

end

/-- The codes that are down are listed by their presses and releases. -/
theorem lists_pressed : Lists pressed codeEdge? where
  starts := rfl
  turn stream event := by
    rw [pressed_concat]
    cases event with
    | press code => exact .goesOn code
    | release code => exact .goesOff code
    | _ => exact .stays
  fits {stream event code edge} fits goes := by
    cases event with
    | press other =>
      obtain ⟨rfl, rfl⟩ : other = code ∧ true = edge := by simpa [codeEdge?] using goes
      simpa using fits.2
    | release other =>
      obtain ⟨rfl, rfl⟩ : other = code ∧ false = edge := by simpa [codeEdge?] using goes
      have was : other ∈ pressed stream := fits
      simpa using was
    | _ => cases goes

/-- The layers that are on are listed by what is said of them. -/
theorem lists_layersOn : Lists layersOn layerEdge? where
  starts := rfl
  turn stream event := by
    rw [layersOn_concat]
    cases event with
    | layerOn id => exact .goesOn id
    | layerOff id => exact .goesOff id
    | _ => exact .stays
  fits {stream event id edge} fits goes := by
    cases event with
    | layerOn other =>
      obtain ⟨rfl, rfl⟩ : other = id ∧ true = edge := by simpa [layerEdge?] using goes
      simpa using fits.2
    | layerOff other =>
      obtain ⟨rfl, rfl⟩ : other = id ∧ false = edge := by simpa [layerEdge?] using goes
      have was : other ∈ layersOn stream := fits
      simpa using was
    | _ => cases goes

namespace Orderly

variable {stream : List HostEvent}

/-- No code is pressed twice without a release. -/
theorem nodup_pressed (orderly : Orderly stream) : (pressed stream).Nodup :=
  lists_pressed.nodup orderly

/-- No layer is switched on twice without being switched off. -/
theorem nodup_layersOn (orderly : Orderly stream) : (layersOn stream).Nodup :=
  lists_layersOn.nodup orderly

/-- After one more event that fits, the codes that are down are known member by member. -/
theorem mem_pressed_concat (orderly : Orderly stream) (event : HostEvent) (code : KeyCode) :
    code ∈ pressed (stream ++ [event]) ↔
      (code ∈ pressed stream ∧ event ≠ .release code) ∨ event = .press code := by
  rw [lists_pressed.mem_concat orderly]
  cases event <;> simp [codeEdge?]

/-- After one more event that fits, the layers that are on are known member by member. -/
theorem mem_layersOn_concat (orderly : Orderly stream) (event : HostEvent) (id : LayerId) :
    id ∈ layersOn (stream ++ [event]) ↔
      (id ∈ layersOn stream ∧ event ≠ .layerOff id) ∨ event = .layerOn id := by
  rw [lists_layersOn.mem_concat orderly]
  cases event <;> simp [layerEdge?]

/-- A code that is up may be pressed, and is down from then on. -/
theorem press (orderly : Orderly stream) {code : KeyCode} (plain : code.isModifier = false)
    (up : code ∉ pressed stream) : Orderly (stream ++ [.press code]) ∧
      ∀ other, other ∈ pressed (stream ++ [.press code]) ↔ other ∈ pressed stream ∨ other = code := by
  refine ⟨orderly.concat ⟨plain, up⟩, fun other => ?_⟩
  rw [orderly.mem_pressed_concat]
  simp [eq_comm]

/-- A code that is down may be released, and is up from then on. -/
theorem release (orderly : Orderly stream) {code : KeyCode} (down : code ∈ pressed stream) :
    Orderly (stream ++ [.release code]) ∧
      ∀ other, other ∈ pressed (stream ++ [.release code]) ↔ other ∈ pressed stream ∧ other ≠ code := by
  refine ⟨orderly.concat down, fun other => ?_⟩
  rw [orderly.mem_pressed_concat]
  simp [eq_comm]

/-- A code that is up may be pressed and released, after which it is up as before. -/
theorem tap (orderly : Orderly stream) {code : KeyCode} (plain : code.isModifier = false)
    (up : code ∉ pressed stream) : Orderly (stream ++ [.press code, .release code]) ∧
      ∀ other, other ∈ pressed (stream ++ [.press code, .release code]) ↔ other ∈ pressed stream := by
  obtain ⟨pressing, down⟩ := orderly.press plain up
  obtain ⟨tapped, view⟩ := pressing.release ((down code).2 (.inr rfl))
  rw [List.append_assoc] at tapped view
  refine ⟨tapped, fun other => ?_⟩
  rw [List.singleton_append] at view
  rw [view, down]
  constructor
  · rintro ⟨earlier | same, differs⟩
    · exact earlier
    · exact absurd same differs
  · rintro earlier
    exact ⟨.inl earlier, fun same => up (same ▸ earlier)⟩

/-- A code that is down may be released and pressed anew, after which it is down as before. -/
theorem repress (orderly : Orderly stream) {code : KeyCode} (plain : code.isModifier = false)
    (down : code ∈ pressed stream) : Orderly (stream ++ [.release code, .press code]) ∧
      ∀ other, other ∈ pressed (stream ++ [.release code, .press code]) ↔ other ∈ pressed stream := by
  obtain ⟨releasing, up⟩ := orderly.release down
  obtain ⟨pressing, view⟩ := releasing.press plain fun still => ((up code).1 still).2 rfl
  rw [List.append_assoc] at pressing view
  refine ⟨pressing, fun other => ?_⟩
  rw [List.singleton_append] at view
  rw [view, up]
  by_cases same : other = code
  · simp [same, down]
  · simp [same]

/-- Codes that are down may be released one after the other. -/
theorem releases (orderly : Orderly stream) {codes : List KeyCode} (distinct : codes.Nodup)
    (down : ∀ code ∈ codes, code ∈ pressed stream) : Orderly (stream ++ codes.map .release) ∧
      ∀ other, other ∈ pressed (stream ++ codes.map .release) ↔
        other ∈ pressed stream ∧ other ∉ codes := by
  induction codes generalizing stream with
  | nil => simpa using orderly
  | cons code rest ih =>
    obtain ⟨absent, distinct⟩ := List.nodup_cons.1 distinct
    obtain ⟨released, up⟩ := orderly.release (down code (.head _))
    have others : ∀ other ∈ rest, other ∈ pressed (stream ++ [.release code]) := fun other member =>
      (up other).2 ⟨down other (.tail _ member), fun same => absent (same ▸ member)⟩
    obtain ⟨all, view⟩ := ih released distinct others
    rw [List.append_assoc] at all view
    refine ⟨all, fun other => ?_⟩
    rw [List.map_cons, ← List.singleton_append, view, up, List.mem_cons, not_or, and_assoc]

/-- The presses and releases of a code alternate, and the code is down when the last one was a
press. -/
theorem codes_alternate (orderly : Orderly stream) (code : KeyCode) :
    Edges.Alternates (stream.filterMap (codeEdge? code)) ∧
      (Edges.endsOn (stream.filterMap (codeEdge? code)) = true ↔ code ∈ pressed stream) :=
  lists_pressed.alternates orderly code

/-- A layer goes on and off in turns, and is on when it was switched on last. -/
theorem layers_alternate (orderly : Orderly stream) (id : LayerId) :
    Edges.Alternates (stream.filterMap (layerEdge? id)) ∧
      (Edges.endsOn (stream.filterMap (layerEdge? id)) = true ↔ id ∈ layersOn stream) :=
  lists_layersOn.alternates orderly id

/-- The modifiers are named only when they change, starting from none. -/
theorem modifiers_change (orderly : Orderly stream) :
    (∅ :: stream.filterMap modifiers?).IsChain (· ≠ ·) ∧
      (∅ :: stream.filterMap modifiers?).getLast? = some (lastModifiers stream) := by
  induction orderly with
  | nil => simp [lastModifiers]
  | @concat stream event before fits ih =>
    rw [lastModifiers_concat, List.filterMap_append, ← List.cons_append]
    cases event with
    | modifiers set =>
      have differs : lastModifiers stream ≠ set := fits
      refine ⟨List.isChain_append.2 ⟨ih.1, by simp [modifiers?], ?_⟩, ?_⟩
      · rw [ih.2]
        simpa [modifiers?] using differs
      · rw [List.getLast?_append]
        simp [modifiers?, modifiersAfter]
    | _ => simpa [List.filterMap_cons, modifiers?, modifiersAfter] using ih

/-- No modifier key is ever pressed. -/
theorem press_plain (orderly : Orderly stream) {code : KeyCode} (told : .press code ∈ stream) :
    code.isModifier = false := by
  induction orderly with
  | nil => simp at told
  | concat _ fits ih =>
    rcases List.mem_append.1 told with earlier | last
    · exact ih earlier
    · rw [← List.mem_singleton.1 last] at fits
      exact fits.1

/-- No modifier key is ever down. -/
theorem pressed_plain (orderly : Orderly stream) {code : KeyCode} (down : code ∈ pressed stream) :
    code.isModifier = false := by
  induction orderly with
  | nil => simp [pressed] at down
  | @concat stream event before fits ih =>
    rw [before.mem_pressed_concat] at down
    rcases down with earlier | rfl
    · exact ih earlier.1
    · exact fits.1

/-- The base layer is never on. -/
theorem base_off (orderly : Orderly stream) : baseLayer ∉ layersOn stream := by
  induction orderly with
  | nil => simp [layersOn]
  | @concat stream event before fits ih =>
    rw [before.mem_layersOn_concat]
    rintro (earlier | rfl)
    · exact ih earlier.1
    · exact fits.1 rfl

/-- The base layer is never mentioned. -/
theorem base_silent (orderly : Orderly stream) :
    .layerOn baseLayer ∉ stream ∧ .layerOff baseLayer ∉ stream := by
  induction orderly with
  | nil => simp
  | @concat stream event before fits ih =>
    simp only [List.mem_append, List.mem_singleton, not_or, ih, not_false_eq_true, true_and]
    constructor
    · rintro rfl
      exact fits.1 rfl
    · rintro rfl
      exact before.base_off fits

end Orderly

end HostEvent

end KeyEngine
