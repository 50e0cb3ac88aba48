import WigOSX.Library.TransitionSystem

/-! An abstract allocator over any type of resources. A pool says which
resources can be handed out and which are held by clients. It fixes no
allocation policy, so a first-fit allocator refines it as well as any other.
The results relate the pool after a run to the observable history alone. -/
namespace ResourcePool

variable {α Label : Type*}

/-- Available and held resources; no resource is both. -/
structure Pool (α : Type*) where
  available : Set α
  held : Set α
  disjoint : Disjoint available held

/-- What a client observes of one call. -/
inductive Event (α : Type*) where
  | acquired (a : α)
  | exhausted
  | released (a : α)
  | refused (a : α)
  | ignored

inductive Step : Pool α → Event α → Pool α → Prop where
  | acquire {p q : Pool α} {a : α} (hMem : a ∈ p.available)
      (hAvailable : q.available = p.available \ {a}) (hHeld : q.held = insert a p.held) :
      Step p (.acquired a) q
  | exhaust {p : Pool α} (hEmpty : p.available = ∅) : Step p .exhausted p
  | release {p q : Pool α} {a : α} (hMem : a ∈ p.held)
      (hAvailable : q.available = insert a p.available) (hHeld : q.held = p.held \ {a}) :
      Step p (.released a) q
  | refuse {p : Pool α} {a : α} (hMem : a ∉ p.held) : Step p (.refused a) p
  | ignore {p : Pool α} : Step p .ignored p

/-- A resource is live when some label of the history acquired it and no
later label released it. -/
def Live (acquires releases : Label → α → Prop) (labels : List Label) (a : α) : Prop :=
  ∃ past label later, labels = past ++ label :: later ∧ acquires label a ∧
    ∀ other ∈ later, ¬releases other a

theorem not_live_nil (acquires releases : Label → α → Prop) (a : α) :
    ¬Live acquires releases [] a := by
  rintro ⟨past, label, later, hEq, -⟩
  simp at hEq

/-- The last label decides alone when it acquires or releases the resource. -/
theorem live_snoc (acquires releases : Label → α → Prop) (labels : List Label) (last : Label)
    (a : α) :
    Live acquires releases (labels ++ [last]) a ↔
      acquires last a ∨ (Live acquires releases labels a ∧ ¬releases last a) := by
  constructor
  · rintro ⟨past, label, later, hEq, hAcquires, hLater⟩
    rcases List.eq_nil_or_concat later with rfl | ⟨front, final, rfl⟩
    · obtain ⟨-, hLabel⟩ := List.append_inj' hEq rfl
      cases hLabel
      exact Or.inl hAcquires
    · rw [List.concat_eq_append, ← List.cons_append, ← List.append_assoc] at hEq
      obtain ⟨hFront, hLabel⟩ := List.append_inj' hEq rfl
      cases hLabel
      refine Or.inr ⟨⟨past, label, front, hFront, hAcquires, ?_⟩, ?_⟩
      · intro other hMem
        exact hLater other (by simp [hMem])
      · exact hLater last (by simp)
  · rintro (hAcquires | ⟨⟨past, label, later, rfl, hAcquires, hLater⟩, hRelease⟩)
    · exact ⟨labels, last, [], rfl, hAcquires, by simp⟩
    · refine ⟨past, label, later ++ [last], by simp, hAcquires, ?_⟩
      intro other hMem
      rcases List.mem_append.mp hMem with hMem | hMem
      · exact hLater other hMem
      · rw [List.mem_singleton.mp hMem]
        exact hRelease

theorem live_map {Source : Type*} (translate : Source → Label) (acquires releases : Label → α → Prop)
    (labels : List Source) (a : α) :
    Live acquires releases (labels.map translate) a ↔
      Live (fun l => acquires (translate l)) (fun l => releases (translate l)) labels a := by
  induction labels using List.reverseRecOn with
  | nil => exact iff_of_false (not_live_nil _ _ a) (not_live_nil _ _ a)
  | append_singleton labels last ih =>
      rw [List.map_append, List.map_singleton, live_snoc, live_snoc, ih]

/-- Liveness of the pool's own events. -/
def LiveEvent : List (Event α) → α → Prop :=
  Live (fun event a => event = .acquired a) (fun event a => event = .released a)

/-- What the history says about the pool it led to. -/
structure Tracks (start : Pool α) (events : List (Event α)) (p : Pool α) : Prop where
  held_iff : ∀ a, a ∈ p.held ↔ LiveEvent events a
  conserved : p.available ∪ p.held = start.available

theorem Tracks.step {start p q : Pool α} {events : List (Event α)} {event : Event α}
    (h : Tracks start events p) (hStep : Step p event q) : Tracks start (events ++ [event]) q := by
  have hLive : ∀ a, LiveEvent (events ++ [event]) a ↔
      event = .acquired a ∨ (a ∈ p.held ∧ event ≠ .released a) := by
    intro a
    rw [h.held_iff]
    exact live_snoc _ _ events event a
  cases hStep with
  | @acquire _ b hMem hAvailable hHeld =>
      refine ⟨fun a => ?_, ?_⟩
      · rw [hLive, hHeld, Set.mem_insert_iff]
        simp [eq_comm]
      · rw [← h.conserved, hAvailable, hHeld]
        ext a
        by_cases hEq : a = b
        · simp [hEq, hMem]
        · simp [hEq]
  | @release _ b hMem hAvailable hHeld =>
      refine ⟨fun a => ?_, ?_⟩
      · rw [hLive, hHeld, Set.mem_sdiff]
        simp [eq_comm]
      · rw [← h.conserved, hAvailable, hHeld]
        ext a
        by_cases hEq : a = b
        · simp [hEq, hMem]
        · simp [hEq]
  | exhaust hEmpty => exact ⟨fun a => by rw [hLive]; simp, h.conserved⟩
  | refuse hMem => exact ⟨fun a => by rw [hLive]; simp, h.conserved⟩
  | ignore => exact ⟨fun a => by rw [hLive]; simp, h.conserved⟩

/-- From a pool that nobody holds anything of, held means live along every
run, and nothing is gained or lost. -/
theorem tracks_of_run {start finish : Pool α} {events : List (Event α)} (hHeld : start.held = ∅)
    (run : TransitionSystem.Run Step start events finish) : Tracks start events finish := by
  refine run.history_invariant (Tracks start) ⟨fun a => ?_, ?_⟩ fun past s event t h hStep =>
    h.step hStep
  · rw [hHeld]
    exact iff_of_false (Set.notMem_empty a) (not_live_nil _ _ a)
  · rw [hHeld, Set.union_empty]

/-- An acquired resource was available at the start and is not live. -/
theorem Tracks.acquired {start p q : Pool α} {events : List (Event α)} {a : α}
    (h : Tracks start events p) (hStep : Step p (.acquired a) q) :
    a ∈ start.available ∧ ¬LiveEvent events a := by
  cases hStep with
  | acquire hMem _ _ =>
      refine ⟨?_, ?_⟩
      · rw [← h.conserved]
        exact Or.inl hMem
      · rw [← h.held_iff]
        exact p.disjoint.notMem_of_mem_left hMem

theorem Tracks.released {start p q : Pool α} {events : List (Event α)} {a : α}
    (h : Tracks start events p) (hStep : Step p (.released a) q) : LiveEvent events a := by
  cases hStep with
  | release hMem _ _ => exact (h.held_iff a).mp hMem

theorem Tracks.refused {start p q : Pool α} {events : List (Event α)} {a : α}
    (h : Tracks start events p) (hStep : Step p (.refused a) q) : ¬LiveEvent events a := by
  cases hStep with
  | refuse hMem => exact fun hLive => hMem ((h.held_iff a).mpr hLive)

end ResourcePool
