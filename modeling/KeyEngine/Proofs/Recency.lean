import Mathlib.Data.List.Induction
import Mathlib.Data.List.Nodup
import KeyEngine.Proofs.Layers

/-!
# Layers by recency

A layer stack keeps its entries in the order in which they were last switched on. `LastOn` says this of the
requests alone: by which of them an entry was last switched on, if it was not taken back since. Whatever
the requests were, the stack lists just the entries for which there is such a request, the latest first, and
what it answers to the next request is what becomes of the layer (`entries_by_recency`).
-/

namespace KeyEngine

namespace LayerStack

/-- How many entries lie above the highest entry of a layer. -/
def above (s : LayerStack) (id : LayerId) : Nat := s.entries.findIdx (·.id == id)

/-- Whether an entry may be switched on: there is a place for it, or it has one already. -/
def Accepts (s : LayerStack) (entry : LayerEntry) : Prop :=
  entry.id ≠ baseLayer ∧ (entry ∈ s.entries ∨ s.entries.length < maxEntries)

instance (s : LayerStack) (entry : LayerEntry) : Decidable (s.Accepts entry) :=
  inferInstanceAs (Decidable (_ ∧ _))

/-- What a stack can be asked for. -/
inductive Request where
  /-- A layer is switched on for a reason. -/
  | activate (entry : LayerEntry)
  /-- A reason for a layer is taken back. -/
  | deactivate (entry : LayerEntry)
  /-- Every layer is switched off. -/
  | clear
deriving DecidableEq

/-- Whether a request says anything of an entry. -/
def Request.concerns (entry : LayerEntry) : Request → Bool
  | activate asked => asked == entry
  | deactivate asked => asked == entry
  | clear => true

/-- The stack after a request. -/
def serve (s : LayerStack) : Request → LayerStack
  | .activate entry => (s.activate entry.id entry.kind).1
  | .deactivate entry => (s.deactivate entry.id entry.kind).1
  | .clear => s.clear.1

/-- The stack after requests, from the one that has no entry. -/
def served (requests : List Request) : LayerStack := requests.foldl serve empty

/-- The last request is served after the others. -/
theorem served_concat (requests : List Request) (request : Request) :
    served (requests ++ [request]) = (served requests).serve request := by
  simp only [served, List.foldl_append, List.foldl_cons, List.foldl_nil]

/-- An entry was last switched on by the request at a place. -/
structure LastOn (requests : List Request) (place : Nat) (entry : LayerEntry) : Prop where
  /-- The request was to switch it on. -/
  asked : requests[place]? = some (.activate entry)
  /-- It was accepted. -/
  accepted : (served (requests.take place)).Accepts entry
  /-- No later request concerns it. -/
  since : ∀ later ∈ requests.drop (place + 1), later.concerns entry = false

namespace LastOn

variable {requests : List Request} {place : Nat} {entry : LayerEntry}

/-- An entry was last switched on by one of the requests. -/
theorem lt (last : LastOn requests place entry) : place < requests.length :=
  (List.getElem?_eq_some_iff.1 last.asked).1

/-- One more request switches its entry on if that is accepted, and leaves others as they are. -/
theorem concat {request : Request} : LastOn (requests ++ [request]) place entry ↔
    (LastOn requests place entry ∧ request.concerns entry = false) ∨
      (place = requests.length ∧ request = .activate entry ∧ (served requests).Accepts entry) := by
  constructor
  · intro last
    have within := last.lt
    rw [List.length_append, List.length_singleton] at within
    rcases Nat.lt_or_eq_of_le (Nat.le_of_lt_succ within) with earlier | rfl
    · have asked := last.asked
      have accepted := last.accepted
      have since := last.since
      rw [List.getElem?_append_left earlier] at asked
      rw [List.take_append_of_le_length (Nat.le_of_lt earlier)] at accepted
      rw [List.drop_append_of_le_length earlier] at since
      exact .inl ⟨⟨asked, accepted, fun later member => since later (List.mem_append_left _ member)⟩,
        since request (List.mem_append_right _ (.head _))⟩
    · have asked := last.asked
      have accepted := last.accepted
      rw [List.getElem?_concat_length] at asked
      rw [List.take_left] at accepted
      exact .inr ⟨rfl, Option.some.inj asked, accepted⟩
  · rintro (⟨last, spared⟩ | ⟨rfl, rfl, accepted⟩)
    · have earlier := last.lt
      refine ⟨?_, ?_, ?_⟩
      · rw [List.getElem?_append_left earlier]
        exact last.asked
      · rw [List.take_append_of_le_length (Nat.le_of_lt earlier)]
        exact last.accepted
      · rw [List.drop_append_of_le_length earlier]
        intro later member
        rcases List.mem_append.1 member with before | here
        · exact last.since later before
        · rw [List.mem_singleton.1 here]
          exact spared
    · refine ⟨List.getElem?_concat_length, ?_, ?_⟩
      · rw [List.take_left]
        exact accepted
      · simp

end LastOn

variable {s : LayerStack}

/-- An entry that is accepted comes to the top. -/
theorem entries_activate_of_accepts {entry : LayerEntry} (accepts : s.Accepts entry) :
    (s.activate entry.id entry.kind).1.entries = entry :: s.entries.erase entry := by
  obtain ⟨upper, room⟩ := accepts
  unfold activate
  rw [if_neg upper]
  by_cases known : s.contains entry.id entry.kind = true
  · rw [if_pos known]
  · have absent : entry ∉ s.entries := fun listed => known (contains_iff.2 listed)
    have few : ¬maxEntries ≤ s.entries.length := Nat.not_le.2 (room.resolve_left absent)
    rw [if_neg known, if_neg few, List.erase_of_not_mem absent]

/-- An entry that is refused changes nothing, and does not switch its layer on. -/
theorem activate_of_refused {entry : LayerEntry} (refused : ¬s.Accepts entry) :
    (s.activate entry.id entry.kind).1 = s ∧ (s.activate entry.id entry.kind).2 ≠ .opened := by
  unfold activate
  by_cases base : entry.id = baseLayer
  · rw [if_pos base]
    exact ⟨rfl, Opening.noConfusion⟩
  · have known : ¬s.contains entry.id entry.kind = true :=
      fun known => refused ⟨base, .inl (contains_iff.1 known)⟩
    have full : maxEntries ≤ s.entries.length :=
      Nat.not_lt.1 fun few => refused ⟨base, .inr few⟩
    rw [if_neg base, if_neg known, if_pos full]
    exact ⟨rfl, Opening.noConfusion⟩

/-- What switching a layer on answers is whether the layer went on. -/
theorem activate_opened_iff (s : LayerStack) (id : LayerId) (kind : Activation) :
    (s.activate id kind).2 = .opened ↔
      s.isActive id = false ∧ (s.activate id kind).1.isActive id = true := by
  constructor
  · intro opened
    obtain ⟨upper, off, -, next⟩ := activate_opened opened
    rw [← isActive_iff_mem upper] at off
    refine ⟨Bool.eq_false_iff.2 off, isActive_iff.2 (.inr ⟨kind, ?_⟩)⟩
    rw [next]
    exact List.mem_cons_self
  · rintro ⟨off, on⟩
    have upper : id ≠ baseLayer := by
      rintro rfl
      rw [isActive_base] at off
      cases off
    have changed := (mem_activeIds_activate s id kind id).1 ((isActive_iff_mem upper).1 on)
    rcases changed with was | ⟨opened, -⟩
    · rw [(isActive_iff_mem upper).2 was] at off
      cases off
    · exact opened

/-- What taking a reason back answers is whether the layer went off. -/
theorem deactivate_closed_iff (s : LayerStack) (id : LayerId) (kind : Activation) :
    (s.deactivate id kind).2 = true ↔
      s.isActive id = true ∧ (s.deactivate id kind).1.isActive id = false := by
  have answer : (s.deactivate id kind).2 =
      (s.contains id kind && !(s.deactivate id kind).1.isActive id) := rfl
  rw [answer, Bool.and_eq_true, Bool.not_eq_true', contains_iff]
  constructor
  · rintro ⟨listed, off⟩
    exact ⟨isActive_iff.2 (.inr ⟨kind, listed⟩), off⟩
  · rintro ⟨on, off⟩
    refine ⟨?_, off⟩
    rw [isActive_iff] at on
    rcases on with rfl | ⟨other, listed⟩
    · rw [isActive_base] at off
      cases off
    · -- Any other reason for the layer would have kept it on.
      by_contra absent
      have still : ⟨id, other⟩ ∈ (s.deactivate id kind).1.entries := by
        refine mem_deactivate.2 ⟨listed, fun same => absent ?_⟩
        rwa [← same]
      rw [isActive_iff.2 (.inr ⟨other, still⟩)] at off
      cases off

/-- Removing some of a list leaves the order of the first places of others. -/
theorem idxOf_lt_of_filter {ids : List LayerId} {keep : LayerId → Bool} {first second : LayerId}
    (kept : keep first = true) (other : keep second = true)
    (before : (ids.filter keep).idxOf first < (ids.filter keep).idxOf second) :
    ids.idxOf first < ids.idxOf second := by
  induction ids with
  | nil => exact absurd before (Nat.lt_irrefl _)
  | cons id rest ih =>
    by_cases here : id = first
    · subst here
      rw [List.filter_cons_of_pos kept] at before
      have differs : id ≠ second := by
        rintro rfl
        exact absurd before (Nat.lt_irrefl _)
      rw [List.idxOf_cons_self, List.idxOf_cons_ne _ differs]
      exact Nat.succ_pos _
    · by_cases there : id = second
      · subst there
        rw [List.filter_cons_of_pos other, List.idxOf_cons_self] at before
        exact absurd before (Nat.not_lt_zero _)
      · rw [List.idxOf_cons_ne _ here, List.idxOf_cons_ne _ there]
        refine Nat.succ_lt_succ (ih ?_)
        cases stays : keep id with
        | false => rwa [List.filter_cons_of_neg (Bool.eq_false_iff.1 stays)] at before
        | true =>
          rw [List.filter_cons_of_pos stays, List.idxOf_cons_ne _ here, List.idxOf_cons_ne _ there]
            at before
          exact Nat.lt_of_succ_lt_succ before

/-- What is left without repetitions stands in the order of the first places. -/
theorem pairwise_eraseDups (ids : List LayerId) :
    ids.eraseDups.Pairwise fun first second => ids.idxOf first < ids.idxOf second := by
  match ids with
  | [] => exact .nil
  | id :: rest =>
    have shorter : (rest.filter fun other => !other == id).length < rest.length + 1 :=
      Nat.lt_succ_of_le (List.length_filter_le _ _)
    have later {other : LayerId} (member : other ∈ (rest.filter fun other => !other == id).eraseDups) :
        (!other == id) = true := (List.mem_filter.1 (List.mem_eraseDups.1 member)).2
    have differs {other : LayerId} (kept : (!other == id) = true) : id ≠ other := by
      rintro rfl
      simp at kept
    rw [List.eraseDups_cons, List.pairwise_cons]
    refine ⟨fun other member => ?_, ?_⟩
    · rw [List.idxOf_cons_self, List.idxOf_cons_ne _ (differs (later member))]
      exact Nat.succ_pos _
    · refine (pairwise_eraseDups _).imp_of_mem fun {first second} one two before => ?_
      rw [List.idxOf_cons_ne _ (differs (later one)), List.idxOf_cons_ne _ (differs (later two))]
      exact Nat.succ_lt_succ (idxOf_lt_of_filter (later one) (later two) before)
termination_by ids.length

/-- The layers that are on are listed in the order of their highest entries. -/
theorem pairwise_activeIds (s : LayerStack) :
    s.activeIds.Pairwise fun first second => s.above first < s.above second := by
  have places (id : LayerId) : (s.entries.map (·.id)).idxOf id = s.above id := by
    rw [List.idxOf, List.findIdx_map, above]
    rfl
  refine (pairwise_eraseDups (s.entries.map (·.id))).imp fun {first second} before => ?_
  rwa [places, places] at before

/-- Every request keeps a stack sound. -/
theorem Sound.serve (sound : s.Sound) (request : Request) : (s.serve request).Sound := by
  cases request with
  | activate entry => exact sound.activate entry.id entry.kind
  | deactivate entry => exact sound.deactivate entry.id entry.kind
  | clear => exact sound_empty

/-- A stack that served requests from the start was switched on and off properly. -/
theorem sound_served (requests : List Request) : (served requests).Sound := by
  induction requests using List.reverseRecOn with
  | nil => exact sound_empty
  | append_singleton requests request ih =>
    rw [served_concat]
    exact ih.serve request

/-- A request leaves the entries that it does not concern, and puts its own on top if that is accepted. -/
theorem entries_serve (sound : s.Sound) (request : Request) :
    (∃ entry, request = .activate entry ∧ s.Accepts entry ∧
      (s.serve request).entries = entry :: s.entries.filter (!request.concerns ·)) ∨
    (∀ entry, request = .activate entry → ¬s.Accepts entry) ∧
      (s.serve request).entries = s.entries.filter (!request.concerns ·) := by
  have others (entry : LayerEntry) (entries : List LayerEntry) :
      entries.filter (· != entry) = entries.filter (fun other => !(entry == other)) := by
    refine List.filter_congr fun other _ => ?_
    rw [bne, Bool.beq_comm]
  cases request with
  | activate entry =>
    by_cases accepts : s.Accepts entry
    · refine .inl ⟨entry, rfl, accepts, ?_⟩
      show (s.activate entry.id entry.kind).1.entries = _
      rw [entries_activate_of_accepts accepts, sound.distinct.erase_eq_filter, others]
      rfl
    · have absent : entry ∉ s.entries := fun listed =>
        accepts ⟨sound.base_absent entry listed, .inl listed⟩
      refine .inr ⟨fun asked same => by rwa [← Request.activate.inj same], ?_⟩
      show (s.activate entry.id entry.kind).1.entries = _
      rw [(activate_of_refused accepts).1]
      refine (List.filter_eq_self.2 fun other listed => ?_).symm
      have differs : entry ≠ other := fun same => absent (same ▸ listed)
      simp [Request.concerns, differs]
  | deactivate entry =>
    refine .inr ⟨fun _ same => (nomatch same), ?_⟩
    exact others entry s.entries
  | clear =>
    refine .inr ⟨fun _ same => (nomatch same), ?_⟩
    simp [LayerStack.serve, LayerStack.clear, empty, Request.concerns]

/-- The entries of a stack are those that were last switched on by some request, the latest first. -/
structure ByRecency (requests : List Request) (s : LayerStack) : Prop where
  /-- Just those are listed. -/
  listed : ∀ entry, entry ∈ s.entries ↔ ∃ place, LastOn requests place entry
  /-- The latest comes first. -/
  latest : s.entries.Pairwise fun first second =>
    ∀ i j, LastOn requests i first → LastOn requests j second → j < i

/-- One more request leaves the entries in the order in which they were last switched on. -/
theorem ByRecency.serve {requests : List Request} (recent : s.ByRecency requests) (same : s = served requests)
    (request : Request) : (s.serve request).ByRecency (requests ++ [request]) := by
  have sound : s.Sound := same ▸ sound_served requests
  have spared (entry : LayerEntry) : entry ∈ s.entries.filter (!request.concerns ·) ↔
      ∃ place, LastOn requests place entry ∧ request.concerns entry = false := by
    simp [recent.listed entry]
  -- A request that is not accepted leaves the order as it was.
  have stays (refused : ∀ first ∈ s.entries.filter (!request.concerns ·),
      ¬(request = .activate first ∧ (served requests).Accepts first)) :
      (s.entries.filter (!request.concerns ·)).Pairwise fun first second =>
        ∀ i j, LastOn (requests ++ [request]) i first → LastOn (requests ++ [request]) j second → j < i := by
    refine (recent.latest.sublist List.filter_sublist).imp_of_mem fun {first second} one two before => ?_
    intro i j on other
    rcases LastOn.concat.1 on with ⟨on, -⟩ | ⟨-, asked⟩
    · rcases LastOn.concat.1 other with ⟨other, -⟩ | ⟨-, asked⟩
      · exact before i j on other
      · exact absurd asked (refused second two)
    · exact absurd asked (refused first one)
  have own {entry other : LayerEntry} (asked : request = .activate entry)
      (kept : other ∈ s.entries.filter (!request.concerns ·)) : other ≠ entry := by
    rintro rfl
    obtain ⟨-, spared⟩ := List.mem_filter.1 kept
    simp [asked, Request.concerns] at spared
  rcases entries_serve sound request with ⟨entry, asked, accepts, next⟩ | ⟨refused, next⟩
  · constructor
    · intro other
      rw [next, List.mem_cons, spared]
      constructor
      · rintro (rfl | ⟨place, last, kept⟩)
        · exact ⟨requests.length, LastOn.concat.2 (.inr ⟨rfl, asked, same ▸ accepts⟩)⟩
        · exact ⟨place, LastOn.concat.2 (.inl ⟨last, kept⟩)⟩
      · rintro ⟨place, last⟩
        rcases LastOn.concat.1 last with ⟨last, kept⟩ | ⟨-, again, -⟩
        · exact .inr ⟨place, last, kept⟩
        · exact .inl (Request.activate.inj (again.symm.trans asked))
    · rw [next, List.pairwise_cons]
      refine ⟨fun other kept i j on last => ?_, stays fun other kept again => ?_⟩
      · have here : i = requests.length := by
          rcases LastOn.concat.1 on with ⟨-, spares⟩ | ⟨here, -⟩
          · simp [asked, Request.concerns] at spares
          · exact here
        rcases LastOn.concat.1 last with ⟨last, -⟩ | ⟨-, again, -⟩
        · exact here ▸ last.lt
        · exact absurd (Request.activate.inj (again.symm.trans asked)) (own asked kept)
      · exact own asked kept (Request.activate.inj (again.1.symm.trans asked))
  · constructor
    · intro other
      rw [next, spared]
      constructor
      · rintro ⟨place, last⟩
        exact ⟨place, LastOn.concat.2 (.inl last)⟩
      · rintro ⟨place, last⟩
        rcases LastOn.concat.1 last with last | ⟨-, asked, accepts⟩
        · exact ⟨place, last⟩
        · exact absurd (same ▸ accepts) (refused other asked)
    · rw [next]
      exact stays fun other _ asked => refused other asked.1 (same ▸ asked.2)

/-- The entries stand in the order in which they were last switched on, whatever the requests. -/
theorem byRecency_served (requests : List Request) : (served requests).ByRecency requests := by
  induction requests using List.reverseRecOn with
  | nil =>
    refine ⟨fun entry => ?_, .nil⟩
    have never (place : Nat) : ¬LastOn [] place entry := fun last => absurd last.lt (Nat.not_lt_zero _)
    simp [served, empty, never]
  | append_singleton requests request ih =>
    rw [served_concat]
    exact ih.serve rfl request

/-- A layer stack lists its entries by recency. After any requests: the base layer has no entry, no reason is
entered twice, and there are at most eight entries; an entry is listed exactly if it was last switched on by
some request, and those that were switched on later come first. Whatever is asked next, switching a layer on
answers exactly whether the layer went on, and changes nothing if it is refused; taking a reason back answers
exactly whether the layer went off; and switching everything off lists every layer that was on, except the base
layer, once, in the order of the highest entries. -/
theorem entries_by_recency (requests : List Request) :
    let s := served requests
    ((∀ entry ∈ s.entries, entry.id ≠ baseLayer) ∧ s.entries.Nodup ∧ s.entries.length ≤ 8) ∧
    ((∀ entry, entry ∈ s.entries ↔ ∃ place, LastOn requests place entry) ∧
      s.entries.Pairwise fun first second =>
        ∀ i j, LastOn requests i first → LastOn requests j second → j < i) ∧
    (∀ id kind, ((s.activate id kind).2 = .opened ↔
        s.isActive id = false ∧ (s.activate id kind).1.isActive id = true) ∧
      (¬s.Accepts ⟨id, kind⟩ → (s.activate id kind).1 = s)) ∧
    (∀ id kind, (s.deactivate id kind).2 = true ↔
      s.isActive id = true ∧ (s.deactivate id kind).1.isActive id = false) ∧
    (s.clear.1 = empty ∧ s.clear.2.Nodup ∧
      (∀ id, id ∈ s.clear.2 ↔ id ≠ baseLayer ∧ s.isActive id = true) ∧
      s.clear.2.Pairwise fun first second => s.above first < s.above second) := by
  intro s
  have sound : s.Sound := sound_served requests
  have recent : s.ByRecency requests := byRecency_served requests
  refine ⟨⟨sound.base_absent, sound.distinct, sound.few⟩, ⟨recent.listed, recent.latest⟩,
    fun id kind => ⟨activate_opened_iff s id kind, fun refused => (activate_of_refused refused).1⟩,
    deactivate_closed_iff s, rfl, s.nodup_activeIds, fun id => ?_, s.pairwise_activeIds⟩
  constructor
  · intro listed
    obtain ⟨kind, entered⟩ := mem_activeIds.1 listed
    have upper : id ≠ baseLayer := sound.base_absent _ entered
    exact ⟨upper, (isActive_iff_mem upper).2 listed⟩
  · rintro ⟨upper, on⟩
    exact (isActive_iff_mem upper).1 on

/-- A layer that is switched on once more for the same reason comes to the top again. -/
example : (served [.activate ⟨1, .held⟩, .activate ⟨2, .held⟩, .activate ⟨1, .toggled⟩,
    .activate ⟨1, .held⟩]).entries = [⟨1, .held⟩, ⟨1, .toggled⟩, ⟨2, .held⟩] := by
  decide

end LayerStack

end KeyEngine
