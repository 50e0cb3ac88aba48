import WigOSX.Library.Completion

/-! A handler that never returns. Run masked, it has the processor for itself:
no interrupt is taken any more, and what it interrupted never goes on.
`Reaches` is about the places that such a program gets to. -/

namespace Interaction

variable {Request : Type → Type} {State Input α β : Type}
  {execute : ∀ ⦃ρ : Type⦄, Input → State → Request ρ → Option (ρ × State)}

section Diverges

variable {rely : State → State → Prop} {inv : State → Prop}

/-- A program that does not return has every postcondition. -/
theorem Diverges.ensures {post any : α → State → Prop} {p : Interaction Request α} {s : State}
    (hDiverges : p.Diverges) (h : Ensures execute rely inv post p s) : Ensures execute rely inv any p s := by
  induction p generalizing s with
  | done a => exact (hDiverges [] a (.done a)).elim
  | ask r next ih =>
      intro t hRely
      refine ⟨(h t hRely).1, fun input reply u hExec => ?_⟩
      have hNext : (next reply).Diverges := fun rest a hReturns => hDiverges _ a (.ask hReturns)
      exact ih reply hNext ((h t hRely).2 input reply u hExec)

end Diverges

section Reaches

/-- Whatever the devices contribute, the undisturbed program comes to a place,
that is to what is left of it and the state there, as the goal says. -/
inductive Reaches (execute : ∀ ⦃ρ : Type⦄, Input → State → Request ρ → Option (ρ × State))
    (goal : Interaction Request α → State → Prop) : Interaction Request α → State → Prop where
  | here {p : Interaction Request α} {s : State} (h : goal p s) : Reaches execute goal p s
  | ask {ρ : Type} {r : Request ρ} {next : ρ → Interaction Request α} {s : State} (reply : Input → ρ)
      (after : Input → State) (hExec : ∀ input, execute input s r = some (reply input, after input))
      (h : ∀ input, Reaches execute goal (next (reply input)) (after input)) :
      Reaches execute goal (.ask r next) s

variable {goal : Interaction Request β → State → Prop}

theorem Reaches.perform {ρ : Type} {r : Request ρ} {f : ρ → Interaction Request β} {s t : State} {reply : ρ}
    (hExec : ∀ input, execute input s r = some (reply, t)) (h : Reaches execute goal (f reply) t) :
    Reaches execute goal (perform r >>= f) s :=
  .ask (fun _ => reply) (fun _ => t) hExec fun _ => h

/-- The rule of sequential composition. -/
theorem Completes.reaches_bind {post : α → State → Prop} {p : Interaction Request α}
    {f : α → Interaction Request β} {s : State} (h : Completes execute (fun _ => False) post p s)
    (hNext : ∀ a t, post a t → Reaches execute goal (f a) t) : Reaches execute goal (p >>= f) s := by
  induction p generalizing s with
  | done a => exact hNext a s h
  | ask r next ih =>
      have hAnswer := h.resolve_left id
      choose reply after hExec hRest using hAnswer
      exact .ask reply after hExec fun input => ih (reply input) (hRest input)

end Reaches
end Interaction

namespace Processor

open Interaction (Ensures Reaches)
open TransitionSystem (Inevitable Run)

variable {Request : Type → Type} {State Line Saved Input Local : Type}
  {cpu : Processor Request State Line Saved Input} {body : Local → Interaction Request Local}
  {p : Interaction Request Local} {frames : List (Saved × Interaction Request Unit)} {saved : Saved}

/-- A handler that does not return runs on top of what it interrupted, and
keeps an invariant. -/
inductive TakenOver (cpu : Processor Request State Line Saved Input) (kept : State → Prop)
    (p : Interaction Request Local) (saved : Saved) (frames : List (Saved × Interaction Request Unit)) :
    Config Request State Line Saved Local → Prop where
  | running {t : State} {h : Interaction Request Unit} {pending : Line → Bool}
      (hHandler : Ensures cpu.execute Eq kept (fun _ _ => False) h t) :
      TakenOver cpu kept p saved frames ⟨t, p, (saved, h) :: frames, pending⟩

variable {kept : State → Prop} {c d : Config Request State Line Saved Local}

theorem TakenOver.state (h : cpu.TakenOver kept p saved frames c) : kept c.state := by
  cases h with
  | running hHandler => exact hHandler.inv_of_refl fun _ => rfl

theorem TakenOver.interrupted (h : cpu.TakenOver kept p saved frames c) :
    c.foreground = p ∧ ∃ handler, c.frames = (saved, handler) :: frames := by
  cases h with
  | running hHandler => exact ⟨rfl, _, rfl⟩

variable [DecidableEq Line]

theorem TakenOver.step (hClosed : ∀ s, kept s → cpu.accepts s = false)
    (h : cpu.TakenOver kept p saved frames c) {action : Schedule Line Input}
    (hStep : cpu.Step body c action d) :
    cpu.TakenOver kept p saved frames d ∧ ∀ line, action ≠ .interrupt line := by
  obtain @⟨t, handler, pending, hHandler⟩ := h
  cases action with
  | raise line =>
      cases hStep
      refine ⟨.running hHandler, fun other hInterrupt => ?_⟩
      cases hInterrupt
  | interrupt line =>
      rw [Step, schedule, Option.ite_none_right_eq_some, Bool.and_eq_true,
        hClosed t (hHandler.inv_of_refl fun _ => rfl)] at hStep
      exact absurd hStep.1.2 Bool.false_ne_true
  | proceed input =>
      refine ⟨?_, fun line hInterrupt => by cases hInterrupt⟩
      cases handler with
      | done result => exact (hHandler t rfl).2.elim
      | ask r next =>
          obtain ⟨⟨reply, u⟩, hExec, rfl⟩ := Option.map_eq_some_iff.mp hStep
          exact .running ((hHandler t rfl).2 input reply u hExec)

/-- From then on, whatever the schedule. -/
theorem TakenOver.run (hClosed : ∀ s, kept s → cpu.accepts s = false)
    (h : cpu.TakenOver kept p saved frames c) {actions : List (Schedule Line Input)}
    (run : Run (cpu.Step body) c actions d) :
    cpu.TakenOver kept p saved frames d ∧ ∀ line, .interrupt line ∉ actions := by
  refine run.history_invariant (fun past e => cpu.TakenOver kept p saved frames e ∧
    ∀ line, .interrupt line ∉ past) ⟨h, fun _ => List.not_mem_nil⟩ fun past e action f hBefore hStep => ?_
  obtain ⟨hAfter, hAction⟩ := hBefore.1.step hClosed hStep
  refine ⟨hAfter, fun line hMem => ?_⟩
  rcases List.mem_append.mp hMem with hPast | hLast
  · exact hBefore.2 line hPast
  · exact hAction line (List.mem_singleton.mp hLast).symm

/-- A handler gets to its places on top of what it interrupted. -/
theorem inevitable_reaches {goal : Interaction Request Unit → State → Prop} {h : Interaction Request Unit}
    {t : State} {pending : Line → Bool} (hReaches : Reaches cpu.execute goal h t) :
    Inevitable (cpu.Step body) .proceed
      (fun c => ∃ rest u, goal rest u ∧ c = ⟨u, p, (saved, rest) :: frames, pending⟩)
      ⟨t, p, (saved, h) :: frames, pending⟩ := by
  induction hReaches with
  | here hGoal => exact .now ⟨_, _, hGoal, rfl⟩
  | @ask ρ r next s reply after hExec _ ih =>
      refine .later (fun input => ⟨after input, p, (saved, next (reply input)) :: frames, pending⟩)
        (fun input => ?_) ih
      show (cpu.execute input s r).map _ = _
      rw [hExec input]
      rfl

end Processor
