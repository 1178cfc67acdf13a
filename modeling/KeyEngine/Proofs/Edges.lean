/-!
# Going down and up in turns

A key, a code or a layer goes on and off. Its edges are listed in order, `true` for going on. They
alternate if the first one goes on and no two that follow each other are the same; `alternates_concat`
says when one more edge keeps them so.
-/

namespace KeyEngine

namespace Edges

/-- Whether edges take turns, when the first of them has to be `next`. -/
def alternatesFrom (next : Bool) : List Bool → Bool
  | [] => true
  | edge :: rest => edge == next && alternatesFrom (!next) rest

/-- The edges take turns, and the first one goes on. -/
def Alternates (edges : List Bool) : Prop := alternatesFrom true edges = true

instance (edges : List Bool) : Decidable (Alternates edges) :=
  inferInstanceAs (Decidable (alternatesFrom true edges = true))

/-- Whether the last edge went on; without edges nothing is on. -/
def endsOn (edges : List Bool) : Bool := edges.getLast?.getD false

/-- Without edges nothing is on. -/
@[simp] theorem endsOn_nil : endsOn [] = false := rfl

/-- What is on at the end is what the last edge says. -/
@[simp] theorem endsOn_concat (edges : List Bool) (edge : Bool) :
    endsOn (edges ++ [edge]) = edge := by
  simp [endsOn]

/-- No edges take turns. -/
@[simp] theorem alternates_nil : Alternates [] := rfl

/-- Edges take turns exactly when the first of them do and the others go on from the last of those. -/
theorem alternatesFrom_append (next : Bool) (edges rest : List Bool) :
    alternatesFrom next (edges ++ rest) = true ↔
      alternatesFrom next edges = true ∧
        alternatesFrom (!edges.getLast?.getD (!next)) rest = true := by
  induction edges generalizing next with
  | nil => simp [alternatesFrom]
  | cons first others ih =>
    simp only [List.cons_append, alternatesFrom, Bool.and_eq_true, beq_iff_eq, ih, Bool.not_not,
      List.getLast?_cons, Option.getD_some, and_assoc]
    constructor
    · rintro ⟨rfl, turns, later⟩
      exact ⟨rfl, turns, later⟩
    · rintro ⟨rfl, turns, later⟩
      exact ⟨rfl, turns, later⟩

/-- One more edge takes its turn exactly when it differs from the last one; where there is none, it has
to be the one expected first. -/
theorem alternatesFrom_concat (next edge : Bool) (edges : List Bool) :
    alternatesFrom next (edges ++ [edge]) = true ↔
      alternatesFrom next edges = true ∧ edge = !edges.getLast?.getD (!next) := by
  rw [alternatesFrom_append]
  simp [alternatesFrom]

/-- One more edge keeps edges alternating exactly when it goes the other way. -/
theorem alternates_concat {edges : List Bool} {edge : Bool} :
    Alternates (edges ++ [edge]) ↔ Alternates edges ∧ edge = !endsOn edges :=
  alternatesFrom_concat true edge edges

/-- Every edge that goes on is followed at once by one that goes off. -/
def paired : List Bool → Bool
  | [] => true
  | false :: rest => paired rest
  | true :: rest => rest.head? == some false && paired rest

/-- Edges that are paired are paired from the second one on. -/
theorem paired_of_cons {edge : Bool} {rest : List Bool} (pairs : paired (edge :: rest) = true) :
    paired rest = true := by
  cases edge with
  | false => exact pairs
  | true => exact (Bool.and_eq_true_iff.1 pairs).2

/-- The end of a list of paired edges is paired. -/
theorem paired_of_append {edges rest : List Bool} (pairs : paired (edges ++ rest) = true) :
    paired rest = true := by
  induction edges with
  | nil => exact pairs
  | cons edge others ih => exact ih (paired_of_cons pairs)

/-- After an edge that goes on, the next one goes off. -/
theorem head?_of_paired (edges : List Bool) {rest : List Bool}
    (pairs : paired (edges ++ true :: rest) = true) : rest.head? = some false :=
  eq_of_beq (Bool.and_eq_true_iff.1 (paired_of_append pairs)).1

/-- An edge that goes on may be left out: what follows it goes off, and so what comes before it goes
off, too. -/
theorem paired_leave_out {edges rest : List Bool} (pairs : paired (edges ++ true :: rest) = true) :
    paired (edges ++ rest) = true := by
  induction edges with
  | nil => exact paired_of_cons pairs
  | cons edge others ih =>
    have left := ih (paired_of_cons pairs)
    cases edge with
    | false => exact left
    | true =>
      have next : (others ++ true :: rest).head? = some false := head?_of_paired [] pairs
      refine Bool.and_eq_true_iff.2 ⟨?_, left⟩
      cases others with
      | nil => cases next
      | cons first others => exact beq_iff_eq.2 next

/-- Edges that take turns and end with going off are paired. -/
theorem paired_of_alternatesFrom {next : Bool} {edges : List Bool}
    (turns : alternatesFrom next edges = true) (off : endsOn edges = false) :
    paired edges = true := by
  induction edges generalizing next with
  | nil => rfl
  | cons edge rest ih =>
    obtain ⟨goes, others⟩ := Bool.and_eq_true_iff.1 turns
    cases rest with
    | nil =>
      cases edge with
      | false => rfl
      | true => cases off
    | cons second later =>
      have still : endsOn (second :: later) = false := by
        simpa [endsOn, List.getLast?_cons] using off
      have pairs := ih others still
      cases edge with
      | false => exact pairs
      | true =>
        have on : true = next := eq_of_beq goes
        rw [← on] at others
        have down : second = false := eq_of_beq (Bool.and_eq_true_iff.1 others).1
        exact Bool.and_eq_true_iff.2 ⟨by rw [down]; rfl, pairs⟩

/-- Edges that may come next: they take turns, and the first one goes off if it is known that something
is on. -/
def MayFollow (on : Bool) (edges : List Bool) : Prop :=
  ∃ next, alternatesFrom next edges = true ∧ (on = true → next = false)

/-- Edges that take turns may follow where nothing need be on. -/
theorem mayFollow_of_alternates {edges : List Bool} (turns : Alternates edges) :
    MayFollow false edges := ⟨true, turns, Bool.noConfusion⟩

namespace MayFollow

variable {on : Bool} {edges rest : List Bool}

/-- After an edge that goes on, something is on. -/
theorem after_on (follows : MayFollow on (edges ++ true :: rest)) : MayFollow true rest := by
  obtain ⟨next, turns, -⟩ := follows
  obtain ⟨-, later⟩ := (alternatesFrom_append next edges _).1 turns
  obtain ⟨goes, others⟩ := Bool.and_eq_true_iff.1 later
  rw [← eq_of_beq goes] at others
  exact ⟨false, others, fun _ => rfl⟩

/-- After an edge that goes off, nothing is known to be on. -/
theorem after_off (follows : MayFollow on (false :: rest)) : MayFollow false rest := by
  obtain ⟨next, turns, -⟩ := follows
  obtain ⟨-, others⟩ := Bool.and_eq_true_iff.1 turns
  exact ⟨!next, others, Bool.noConfusion⟩

/-- Where something is on, an edge that goes on comes after one that goes off. -/
theorem last_off (follows : MayFollow true (edges ++ true :: rest)) : edges.getLast? = some false := by
  obtain ⟨next, turns, known⟩ := follows
  obtain ⟨-, later⟩ := (alternatesFrom_append next edges _).1 turns
  obtain ⟨goes, -⟩ := Bool.and_eq_true_iff.1 later
  rw [known rfl] at goes
  cases last : edges.getLast? with
  | none =>
    rw [last] at goes
    cases goes
  | some edge =>
    rw [last] at goes
    cases edge with
    | false => rfl
    | true => cases goes

/-- The first edges may be left out, unless they turn off what is known to be on. -/
theorem leave_out (follows : MayFollow on (edges ++ rest))
    (stays : on = true → edges.getLast? ≠ some false) : MayFollow on rest := by
  obtain ⟨next, turns, known⟩ := follows
  obtain ⟨-, later⟩ := (alternatesFrom_append next edges _).1 turns
  refine ⟨_, later, fun isOn => ?_⟩
  rw [known isOn]
  cases last : edges.getLast? with
  | none => rfl
  | some edge =>
    cases edge with
    | false => exact absurd last (stays isOn)
    | true => rfl

end MayFollow

end Edges

end KeyEngine
