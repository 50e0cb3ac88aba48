import Mathlib

/-! Finite runs of a labelled transition relation, with the induction rules
that carry an invariant, an invariant about the labels seen so far, and a
simulation along a whole run. A system that answers requests is observed
through its replies; bisimilar states give the same replies forever. -/
namespace TransitionSystem

variable {State Abstract Label AbstractLabel : Type*} {step : State → Label → State → Prop}

/-- A run lists the labels of its steps in the order they were taken. -/
inductive Run (step : State → Label → State → Prop) (start : State) : List Label → State → Prop where
  | nil : Run step start [] start
  | snoc {labels : List Label} {middle finish : State} {label : Label}
      (prior : Run step start labels middle) (last : step middle label finish) :
      Run step start (labels ++ [label]) finish

namespace Run

variable {start middle finish : State} {labels : List Label}

theorem single {label : Label} (h : step start label finish) : Run step start [label] finish :=
  .snoc .nil h

theorem trans {more : List Label} (first : Run step start labels middle)
    (second : Run step middle more finish) : Run step start (labels ++ more) finish := by
  induction second with
  | nil => simpa using first
  | snoc prior last ih =>
      rw [← List.append_assoc]
      exact .snoc ih last

theorem cons {label : Label} (first : step start label middle)
    (rest : Run step middle labels finish) : Run step start (label :: labels) finish :=
  (single first).trans rest

/-- What every step preserves holds at the end of every run. -/
theorem invariant (inv : State → Prop) (run : Run step start labels finish) (hStart : inv start)
    (hStep : ∀ s label t, inv s → step s label t → inv t) : inv finish := by
  induction run with
  | nil => exact hStart
  | snoc prior last ih => exact hStep _ _ _ ih last

/-- An invariant may also speak about the labels of the run so far. -/
theorem history_invariant (inv : List Label → State → Prop) (run : Run step start labels finish)
    (hStart : inv [] start)
    (hStep : ∀ past s label t, inv past s → step s label t → inv (past ++ [label]) t) :
    inv labels finish := by
  induction run with
  | nil => exact hStart
  | snoc prior last ih => exact hStep _ _ _ _ ih last

/-- A forward simulation turns a run into a run of the abstract system over
the translated labels. -/
theorem simulate {abstractStep : Abstract → AbstractLabel → Abstract → Prop}
    {rel : State → Abstract → Prop} (translate : Label → AbstractLabel)
    (run : Run step start labels finish) {abstractStart : Abstract} (hStart : rel start abstractStart)
    (hStep : ∀ s label t a, rel s a → step s label t →
      ∃ b, abstractStep a (translate label) b ∧ rel t b) :
    ∃ abstractFinish, Run abstractStep abstractStart (labels.map translate) abstractFinish ∧
      rel finish abstractFinish := by
  induction run with
  | nil => exact ⟨abstractStart, .nil, hStart⟩
  | snoc prior last ih =>
      obtain ⟨a, hRun, hRel⟩ := ih
      obtain ⟨b, hLast, hNext⟩ := hStep _ _ _ _ hRel last
      refine ⟨b, ?_, hNext⟩
      rw [List.map_append, List.map_singleton]
      exact .snoc hRun hLast

end Run

section Replies

variable {Request Reply : Type*}

/-- The replies to a list of requests, each served in the state the previous
one left behind. -/
def replies (serve : Request → State → Reply × State) : List Request → State → List Reply
  | [], _ => []
  | request :: rest, s => (serve request s).1 :: replies serve rest (serve request s).2

/-- States that agree on the next reply and stay related agree on all. -/
theorem replies_eq_of_bisimulation {serve : Request → State → Reply × State}
    (rel : State → State → Prop)
    (hServe : ∀ s t, rel s t → ∀ request,
      (serve request t).1 = (serve request s).1 ∧ rel (serve request s).2 (serve request t).2)
    (requests : List Request) {s t : State} (h : rel s t) :
    replies serve requests t = replies serve requests s := by
  induction requests generalizing s t with
  | nil => rfl
  | cons request rest ih =>
      obtain ⟨hReply, hNext⟩ := hServe s t h request
      rw [replies, replies, hReply, ih hNext]

end Replies
end TransitionSystem
