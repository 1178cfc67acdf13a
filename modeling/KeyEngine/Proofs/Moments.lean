import Mathlib.Data.List.Induction
import KeyEngine.Proofs.Edges
import KeyEngine.Proofs.Waiting

/-!
# The moments of a run

Answering a call takes several deeds: tasks of the agenda, time that passes for the one-shots, a cancel.
A moment is a deed together with the state in which it is done, and the course of a run lists its
moments. With it a statement can speak of what happens between two points of a run, and not only of its
end: `leads_course` says that every moment starts where the one before it ended, so that whatever no
deed can end holds at every moment.
-/

namespace KeyEngine

/-- An entry of two lists in a row stands in the first or in the second. -/
theorem append_eq_append_cons {α : Type} {first second front back : List α} {entry : α}
    (parts : first ++ second = front ++ entry :: back) : (∃ others, first = front ++ entry :: others) ∨
      ∃ others, front = first ++ others ∧ second = others ++ entry :: back := by
  rcases List.append_eq_append_iff.1 parts with ⟨others, rfl, here⟩ | ⟨others, rfl, here⟩
  · exact .inr ⟨others, rfl, here⟩
  · cases others with
    | nil => exact .inr ⟨[], by simp, here.symm⟩
    | cons entry others =>
      obtain ⟨rfl, -⟩ := List.cons.inj here
      exact .inl ⟨others, rfl⟩

namespace Call

/-- When a call is made; a cancel bears no time. -/
def time? : Call → Option Millis
  | .event arriving => some arriving.time
  | .tick now => some now
  | .cancel => none

/-- Calls as a keyboard makes them: every key goes down and up in turns, and time does not run
backwards. -/
def Regular (calls : List Call) : Prop :=
  (∀ event ∈ events calls, Edges.Alternates (KeyEvent.edges event.key (events calls))) ∧
    (calls.filterMap time?).Pairwise (· ≤ ·)

instance (calls : List Call) : Decidable (Regular calls) := inferInstanceAs (Decidable (_ ∧ _))

end Call

/-- One thing that the engine does. -/
inductive Deed where
  /-- A task of the agenda. -/
  | task (task : Task)
  /-- Time passes for the one-shots. -/
  | elapse (now : Millis)
  /-- Everything is dropped and released. -/
  | cancel
deriving DecidableEq

/-- A deed, and the state in which it is done. -/
structure Moment where
  /-- The state before the deed. -/
  state : Engine
  /-- What is done. -/
  deed : Deed
deriving DecidableEq

/-- Another small keyboard to try things on: a modifier when held, a stroke that the layer above
replaces, cancel, a one-shot shift, and a one-shot for the layer above. -/
def Profile.mixed : Profile where
  keymap :=
    ⟨[⟨"base", [.modTap (.single .leftControl) (.ofCode .a), .plain (.ofCode .b), .cancel,
        .oneShotModifier (.single .leftShift), .oneShotLayer 1]⟩,
      ⟨"above", [.transparent, .plain (.ofCode .c)]⟩],
      Keymap.firstFault_eq_none_iff.1 (by decide)⟩
  settings := .standard
  layerModifiers := .none

namespace Engine

/-- A state that is not pending has no waiting key. -/
theorem head_of_free {s : Engine} (free : s.isPending = false) : s.tapHold.head = none :=
  Option.not_isSome_iff_eq_none.1 (Bool.eq_false_iff.1 free)

/-- Time has passed for the one-shots. -/
def elapse (p : Profile) (now : Millis) (s : Engine) : Engine :=
  s.mapOneShots (·.tick · p.settings p.layerModifiers now)

end Engine

/-- The state after the deed. -/
def Moment.next (p : Profile) (m : Moment) : Engine :=
  match m.deed with
  | .task task => (m.state.step p task).1
  | .elapse now => m.state.elapse p now
  | .cancel => m.state.cancel p

namespace Engine

variable {p : Profile} {s t : Engine}

/-- The tasks of an agenda are done in order. -/
theorem run_append (s : Engine) (agenda more : List Task) :
    s.run p (agenda ++ more) = (s.run p agenda).run p more := by
  induction s, agenda using run.induct p with
  | case1 s => rw [run_nil, List.nil_append]
  | case2 s task rest ih => rw [List.cons_append, run_cons, run_cons, ← ih, List.append_assoc]

/-- The moments in which the tasks of an agenda are done. -/
def doing (p : Profile) (s : Engine) : List Task → List Moment
  | [] => []
  | task :: rest => ⟨s, .task task⟩ :: doing p (step p s task).1 ((step p s task).2 ++ rest)
termination_by agenda => (s.backlog + feeds agenda, agenda.length)
decreasing_by exact agenda_decreases p s task rest

/-- The moments of a tick. -/
def ticking (p : Profile) (now : Millis) (s : Engine) : List Moment :=
  s.doing p [.expire now] ++ [⟨s.run p [.expire now], .elapse now⟩]

/-- The moments of the answer to a call. -/
def answering (p : Profile) (s : Engine) : Call → List Moment
  | .event event => s.ticking p event.time ++ (s.tick p event.time).doing p [.feed event]
  | .tick now => s.ticking p now
  | .cancel => [⟨s, .cancel⟩]

/-- The moments of the answers to several calls. -/
def course (p : Profile) (s : Engine) : List Call → List Moment
  | [] => []
  | call :: rest => s.answering p call ++ course p (s.answer p call) rest

/-- The course of two runs in a row is that of the first and then that of the second. -/
theorem course_append (s : Engine) (calls more : List Call) :
    s.course p (calls ++ more) = s.course p calls ++ (calls.foldl (answer p) s).course p more := by
  induction calls generalizing s with
  | nil => rfl
  | cons call rest ih => rw [List.cons_append, course, course, ih, List.append_assoc, List.foldl_cons]

/-- Moments lead from one state to another if each of them starts where the one before it ended. -/
def Leads (p : Profile) : Engine → List Moment → Engine → Prop
  | s, [], t => s = t
  | s, m :: rest, t => m.state = s ∧ Leads p (m.next p) rest t

/-- Moments lead from one state to another through the state in which any first part of them ends. -/
theorem leads_append {before after : List Moment} :
    Leads p s (before ++ after) t ↔ ∃ u, Leads p s before u ∧ Leads p u after t := by
  induction before generalizing s with
  | nil => simp [Leads]
  | cons m rest ih =>
    simp only [List.cons_append, Leads, ih]
    constructor
    · rintro ⟨starts, u, first, second⟩
      exact ⟨u, ⟨starts, first⟩, second⟩
    · rintro ⟨u, ⟨starts, first⟩, second⟩
      exact ⟨starts, u, first, second⟩

/-- A moment leads from its own state to the one after its deed. -/
theorem leads_single {m : Moment} : Leads p m.state [m] (m.next p) := ⟨rfl, rfl⟩

/-- The moments of an agenda lead to the state in which it ends. -/
theorem leads_doing (p : Profile) (s : Engine) (agenda : List Task) :
    Leads p s (s.doing p agenda) (s.run p agenda) := by
  induction s, agenda using run.induct p with
  | case1 s =>
    rw [doing, run_nil]
    rfl
  | case2 s task rest ih =>
    rw [doing, run_cons]
    exact ⟨rfl, ih⟩

/-- The moments of a tick lead to the state in which it ends. -/
theorem leads_ticking (p : Profile) (now : Millis) (s : Engine) :
    Leads p s (s.ticking p now) (s.tick p now) :=
  leads_append.2 ⟨_, leads_doing p s _, leads_single⟩

/-- The moments of an answer lead to the state in which it ends. -/
theorem leads_answering (p : Profile) (s : Engine) (call : Call) :
    Leads p s (s.answering p call) (s.answer p call) := by
  cases call with
  | event event => exact leads_append.2 ⟨_, leads_ticking p event.time s, leads_doing p _ _⟩
  | tick now => exact leads_ticking p now s
  | cancel => exact leads_single

/-- The course of a run leads from its first state to its last. -/
theorem leads_course (p : Profile) (s : Engine) (calls : List Call) :
    Leads p s (s.course p calls) (calls.foldl (answer p) s) := by
  induction calls generalizing s with
  | nil => rfl
  | cons call rest ih => exact leads_append.2 ⟨_, leads_answering p s call, ih _⟩

/-- Where no deed ends a property, it holds to the end. -/
theorem Leads.invariant {inv : Engine → Prop} {moments : List Moment} (leads : Leads p s moments t)
    (kept : ∀ m ∈ moments, inv m.state → inv (m.next p)) (holds : inv s) : inv t := by
  induction moments generalizing s with
  | nil => exact leads ▸ holds
  | cons m rest ih =>
    obtain ⟨rfl, later⟩ := leads
    exact ih later (fun n member => kept n (.tail _ member)) (kept m (.head _) holds)

/-- If a property holds at the end of a run and not at its start, there is a last moment that brings it
about. -/
theorem Leads.last_start {P : Engine → Prop} {moments : List Moment} {t : Engine}
    (leads : Leads p s moments t) (off : ¬P s) (on : P t) :
    ∃ before m later, moments = before ++ m :: later ∧ ¬P m.state ∧ P (m.next p) ∧
      ∀ n ∈ later, P n.state ∧ P (n.next p) := by
  induction moments using List.reverseRecOn generalizing t with
  | nil => exact absurd (leads ▸ on) off
  | append_singleton earlier m ih =>
    obtain ⟨u, first, rfl, rfl⟩ := leads_append.1 leads
    by_cases was : P m.state
    · obtain ⟨before, start, later, rfl, starts, goes, stays⟩ := ih first was
      refine ⟨before, start, later ++ [m], by simp, starts, goes, fun n member => ?_⟩
      rcases List.mem_append.1 member with within | last
      · exact stays n within
      · rw [List.mem_singleton.1 last]
        exact ⟨was, on⟩
    · exact ⟨earlier, m, [], rfl, was, on, by simp⟩

namespace Lasting

variable {inv : Engine → Prop}

/-- No deed ends a lasting property. -/
theorem next (lasting : Lasting p inv) (m : Moment) (holds : inv m.state) : inv (m.next p) := by
  obtain ⟨s, deed⟩ := m
  cases deed with
  | task task => exact lasting.step (step_spec p s task) holds
  | elapse now => exact lasting.elapse s now holds
  | cancel => exact lasting.cancel s holds

/-- A lasting property of the first state holds at every moment of a run. -/
theorem of_mem_course (lasting : Lasting p inv) {calls : List Call} {m : Moment} (holds : inv s)
    (member : m ∈ s.course p calls) : inv m.state := by
  obtain ⟨before, later, split⟩ := List.append_of_mem member
  obtain ⟨u, earlier, starts, -⟩ := leads_append.1 (split ▸ leads_course p s calls)
  rw [starts]
  exact earlier.invariant (fun n _ => lasting.next n) holds

/-- What nothing the engine does can end holds at the end of moments if it held at their start. -/
theorem leads (lasting : Lasting p inv) {moments : List Moment} (leads : Leads p s moments t)
    (holds : inv s) : inv t :=
  leads.invariant (fun m _ => lasting.next m) holds

end Lasting

end Engine

end KeyEngine
