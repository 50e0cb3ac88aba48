import WigOSX.Library.Interaction
import WigOSX.Library.TransitionSystem

/-! One processor with interrupts. A foreground program runs in a loop, request
by request; interrupts on any line may be raised at any time and are taken
between two requests whenever the state accepts them. A taken interrupt runs
its handler on top of what it interrupted and then gives the saved part of
the state back. `Discipline.covered_of_run` carries guarantees of the loop body
and of the handlers through every interleaving, `GuardedDiscipline.covered_of_run`
through those in which interrupts stay away from some places. -/

/-- The requests of one processor and what surrounds them. -/
structure Processor (Request : Type → Type) (State Line Saved Input : Type) : Type 1 where
  /-- Answers a request; `Input` is what devices contribute. -/
  execute : ∀ ⦃ρ : Type⦄, Input → State → Request ρ → Option (ρ × State)
  /-- An interrupt would be recognized now. -/
  accepts : State → Bool
  /-- What recognition does to the state. -/
  enter : State → State
  save : State → Saved
  restore : Saved → State → State
  handler : Line → Interaction Request Unit

/-- What may happen next. -/
inductive Schedule (Line Input : Type) where
  | raise (line : Line)
  | interrupt (line : Line)
  | proceed (input : Input)

namespace Processor

variable {Request : Type → Type} {State Line Saved Input Local : Type}

/-- The processor in the middle of a run. `Local` is what the foreground
carries from one round of its loop to the next. -/
structure Config (Request : Type → Type) (State Line Saved Local : Type) : Type 1 where
  state : State
  foreground : Interaction Request Local
  /-- Interrupted handlers, the running one first. -/
  frames : List (Saved × Interaction Request Unit)
  pending : Line → Bool

variable (cpu : Processor Request State Line Saved Input)
  (body : Local → Interaction Request Local)

/-- The running program makes its next request, or returns: a handler to what
it interrupted, the loop body to its own beginning. -/
def proceed (input : Input) (c : Config Request State Line Saved Local) :
    Option (Config Request State Line Saved Local) :=
  match c.frames with
  | [] =>
      match c.foreground with
      | .done carried => some { c with foreground := body carried }
      | .ask request next =>
          (cpu.execute input c.state request).map fun answer =>
            { c with state := answer.2, foreground := next answer.1 }
  | (saved, .done _) :: frames =>
      some { c with state := cpu.restore saved c.state, frames := frames }
  | (saved, .ask request next) :: frames =>
      (cpu.execute input c.state request).map fun answer =>
        { c with state := answer.2, frames := (saved, next answer.1) :: frames }

section Schedule

variable [DecidableEq Line]

/-- One step of the processor. -/
def schedule (c : Config Request State Line Saved Local) :
    Schedule Line Input → Option (Config Request State Line Saved Local)
  | .raise line => some { c with pending := Function.update c.pending line true }
  | .interrupt line =>
      if c.pending line && cpu.accepts c.state then
        some
          { c with
            state := cpu.enter c.state
            frames := (cpu.save c.state, cpu.handler line) :: c.frames
            pending := Function.update c.pending line false }
      else none
  | .proceed input => cpu.proceed body input c

def Step (c : Config Request State Line Saved Local) (action : Schedule Line Input)
    (d : Config Request State Line Saved Local) : Prop :=
  cpu.schedule body c action = some d

/-- Takes the scheduled steps one after the other. -/
def play : Config Request State Line Saved Local → List (Schedule Line Input) →
    Option (Config Request State Line Saved Local)
  | c, [] => some c
  | c, action :: rest => (cpu.schedule body c action).bind fun d => play d rest

theorem run_of_play {c d : Config Request State Line Saved Local}
    {actions : List (Schedule Line Input)} (h : cpu.play body c actions = some d) :
    TransitionSystem.Run (cpu.Step body) c actions d := by
  induction actions generalizing c with
  | nil =>
      cases h
      exact .nil
  | cons action rest ih =>
      rw [play, Option.bind_eq_some_iff] at h
      obtain ⟨middle, hFirst, hRest⟩ := h
      exact TransitionSystem.Run.cons hFirst (ih hRest)

/-- The configuration that a schedule leads to, as far as a view of it goes. -/
theorem exists_run_of_play {α : Type} (c : Config Request State Line Saved Local)
    (actions : List (Schedule Line Input)) (view : Config Request State Line Saved Local → α) {seen : α}
    (h : (cpu.play body c actions).map view = some seen) :
    ∃ d, TransitionSystem.Run (cpu.Step body) c actions d ∧ view d = seen := by
  obtain ⟨d, hPlay, hSeen⟩ := Option.map_eq_some_iff.mp h
  exact ⟨d, cpu.run_of_play body hPlay, hSeen⟩

end Schedule

section Guarantee

/-- What the guarantees of a loop body and of masked handlers rest on. `rely`
bounds what a whole handler does to the interrupted foreground, and `masked`
relates the state inside a handler to the one it interrupted. -/
structure Discipline (inv : State → Prop) (rely : State → State → Prop)
    (masked : State → State → Prop) (start : Local → State → Prop) : Prop where
  refl : ∀ s, rely s s
  trans : ∀ s t u, rely s t → rely t u → rely s u
  body : ∀ carried s, start carried s → Interaction.Ensures cpu.execute rely inv start (body carried) s
  handler : ∀ line s, inv s → cpu.accepts s = true →
    Interaction.Ensures cpu.execute Eq (masked s) (fun _ t => rely s (cpu.restore (cpu.save s) t))
      (cpu.handler line) (cpu.enter s)
  closed : ∀ s t, masked s t → cpu.accepts t = false

/-- Either the foreground runs and keeps its guarantee, or one handler does,
on top of a state that the foreground's guarantee is still about. -/
inductive Covered (inv : State → Prop) (rely : State → State → Prop)
    (masked : State → State → Prop) (start : Local → State → Prop) :
    Config Request State Line Saved Local → Prop where
  | foreground {s : State} {p : Interaction Request Local} {pending : Line → Bool}
      (h : Interaction.Ensures cpu.execute rely inv start p s) :
      Covered inv rely masked start ⟨s, p, [], pending⟩
  | handler {s t : State} {p : Interaction Request Local} {h : Interaction Request Unit}
      {pending : Line → Bool} (hForeground : Interaction.Ensures cpu.execute rely inv start p s)
      (hInv : inv s) (hAccepts : cpu.accepts s = true)
      (hHandler : Interaction.Ensures cpu.execute Eq (masked s)
        (fun _ t => rely s (cpu.restore (cpu.save s) t)) h t) :
      Covered inv rely masked start ⟨t, p, [(cpu.save s, h)], pending⟩

variable {cpu body} {inv : State → Prop} {rely : State → State → Prop}
  {masked : State → State → Prop} {start : Local → State → Prop}

/-- A step of the foreground, which no handler interrupts. -/
theorem Discipline.proceed_foreground (hDiscipline : cpu.Discipline body inv rely masked start)
    {s : State} {p : Interaction Request Local} {pending : Line → Bool} {input : Input}
    {d : Config Request State Line Saved Local}
    (h : Interaction.Ensures cpu.execute rely inv start p s)
    (hStep : cpu.proceed body input ⟨s, p, [], pending⟩ = some d) :
    cpu.Covered inv rely masked start d := by
  cases p with
  | done carried =>
      cases hStep
      exact .foreground (hDiscipline.body carried s (h s (hDiscipline.refl s)).2)
  | ask request next =>
      obtain ⟨⟨reply, t⟩, hExec, rfl⟩ := Option.map_eq_some_iff.mp hStep
      exact .foreground ((h s (hDiscipline.refl s)).2 input reply t hExec)

/-- A step of a handler; when it returns, the foreground goes on from a state
that it relied on. -/
theorem Discipline.proceed_handler (hDiscipline : cpu.Discipline body inv rely masked start)
    {s t : State} {p : Interaction Request Local} {h : Interaction Request Unit}
    {pending : Line → Bool} {input : Input} {d : Config Request State Line Saved Local}
    (hForeground : Interaction.Ensures cpu.execute rely inv start p s)
    (hInv : inv s) (hAccepts : cpu.accepts s = true)
    (hHandler : Interaction.Ensures cpu.execute Eq (masked s)
      (fun _ t => rely s (cpu.restore (cpu.save s) t)) h t)
    (hStep : cpu.proceed body input ⟨t, p, [(cpu.save s, h)], pending⟩ = some d) :
    cpu.Covered inv rely masked start d := by
  cases h with
  | done result =>
      cases hStep
      exact .foreground (hForeground.stable hDiscipline.trans (hHandler t rfl).2)
  | ask request next =>
      obtain ⟨⟨reply, u⟩, hExec, rfl⟩ := Option.map_eq_some_iff.mp hStep
      exact .handler hForeground hInv hAccepts ((hHandler t rfl).2 input reply u hExec)

variable [DecidableEq Line]

theorem Discipline.step (hDiscipline : cpu.Discipline body inv rely masked start)
    {c d : Config Request State Line Saved Local} {action : Schedule Line Input}
    (h : cpu.Covered inv rely masked start c) (hStep : cpu.Step body c action d) :
    cpu.Covered inv rely masked start d := by
  cases action with
  | raise line =>
      cases hStep
      cases h with
      | foreground h => exact .foreground h
      | handler hForeground hInv hAccepts hHandler => exact .handler hForeground hInv hAccepts hHandler
  | interrupt line =>
      rw [Step, schedule, Option.ite_none_right_eq_some, Bool.and_eq_true] at hStep
      obtain ⟨⟨-, hAccepts⟩, hEq⟩ := hStep
      cases hEq
      cases h with
      | foreground h =>
          have hInv := h.inv_of_refl hDiscipline.refl
          exact .handler h hInv hAccepts (hDiscipline.handler line _ hInv hAccepts)
      | handler hForeground hInv _ hHandler =>
          -- a masked handler is not interrupted itself
          have hClosed := hDiscipline.closed _ _ (hHandler.inv_of_refl fun _ => rfl)
          rw [hClosed] at hAccepts
          cases hAccepts
  | proceed input =>
      cases h with
      | foreground h => exact hDiscipline.proceed_foreground h hStep
      | handler hForeground hInv hAccepts hHandler =>
          exact hDiscipline.proceed_handler hForeground hInv hAccepts hHandler hStep

/-- Every configuration of every run is covered. -/
theorem Discipline.covered_of_run (hDiscipline : cpu.Discipline body inv rely masked start)
    {c d : Config Request State Line Saved Local} {actions : List (Schedule Line Input)}
    (hStart : cpu.Covered inv rely masked start c)
    (run : TransitionSystem.Run (cpu.Step body) c actions d) : cpu.Covered inv rely masked start d :=
  run.invariant (cpu.Covered inv rely masked start) hStart fun _ _ _ h hStep => hDiscipline.step h hStep

end Guarantee

section Guarded

/-- Interrupts are taken only where the guard, a condition on the interrupted
program and the state, allows it. -/
def GuardedStep [DecidableEq Line] (guard : Interaction Request Local → State → Prop)
    (c : Config Request State Line Saved Local) (action : Schedule Line Input)
    (d : Config Request State Line Saved Local) : Prop :=
  cpu.Step body c action d ∧ ∀ line, action = .interrupt line → guard c.foreground c.state

/-- `holds` speaks about a foreground program and the state it stands in. It
is kept by what the program does and by every handler that the guard lets in;
handlers run masked. -/
structure GuardedDiscipline (guard holds : Interaction Request Local → State → Prop)
    (masked : State → Prop) : Prop where
  again : ∀ carried s, holds (.done carried) s → holds (body carried) s
  ask : ∀ {ρ : Type} (r : Request ρ) (next : ρ → Interaction Request Local) (input : Input)
    (s : State) (reply : ρ) (t : State), holds (.ask r next) s →
    cpu.execute input s r = some (reply, t) → holds (next reply) t
  handler : ∀ line p s, holds p s → cpu.accepts s = true → guard p s →
    Interaction.Ensures cpu.execute Eq masked (fun _ t => holds p (cpu.restore (cpu.save s) t))
      (cpu.handler line) (cpu.enter s)
  closed : ∀ s, masked s → cpu.accepts s = false

/-- Either the foreground runs, or one handler that will give the state back
as the foreground needs it. -/
inductive GuardedCovered (holds : Interaction Request Local → State → Prop) (masked : State → Prop) :
    Config Request State Line Saved Local → Prop where
  | foreground {s : State} {p : Interaction Request Local} {pending : Line → Bool} (h : holds p s) :
      GuardedCovered holds masked ⟨s, p, [], pending⟩
  | handler {t : State} {p : Interaction Request Local} {h : Interaction Request Unit} {saved : Saved}
      {pending : Line → Bool} (hHandler : Interaction.Ensures cpu.execute Eq masked
        (fun _ t => holds p (cpu.restore saved t)) h t) :
      GuardedCovered holds masked ⟨t, p, [(saved, h)], pending⟩

variable {cpu body} {guard holds : Interaction Request Local → State → Prop} {masked : State → Prop}

/-- What the foreground's predicate and the mask both entail always holds. -/
theorem GuardedCovered.property {inv : State → Prop} {c : Config Request State Line Saved Local}
    (h : cpu.GuardedCovered holds masked c) (hHolds : ∀ p s, holds p s → inv s)
    (hMasked : ∀ s, masked s → inv s) : inv c.state := by
  cases h with
  | foreground h => exact hHolds _ _ h
  | handler hHandler => exact hMasked _ (hHandler.inv_of_refl fun _ => rfl)

theorem GuardedDiscipline.proceed (hDiscipline : cpu.GuardedDiscipline body guard holds masked)
    {c d : Config Request State Line Saved Local} {input : Input}
    (h : cpu.GuardedCovered holds masked c) (hStep : cpu.proceed body input c = some d) :
    cpu.GuardedCovered holds masked d := by
  cases h with
  | @foreground s p pending h =>
      cases p with
      | done carried =>
          cases hStep
          exact .foreground (hDiscipline.again carried s h)
      | ask r next =>
          obtain ⟨⟨reply, t⟩, hExec, rfl⟩ := Option.map_eq_some_iff.mp hStep
          exact .foreground (hDiscipline.ask r next input s reply t h hExec)
  | @handler t p h saved pending hHandler =>
      cases h with
      | done result =>
          cases hStep
          exact .foreground (hHandler t rfl).2
      | ask r next =>
          obtain ⟨⟨reply, u⟩, hExec, rfl⟩ := Option.map_eq_some_iff.mp hStep
          exact .handler ((hHandler t rfl).2 input reply u hExec)

variable [DecidableEq Line]

theorem GuardedDiscipline.step (hDiscipline : cpu.GuardedDiscipline body guard holds masked)
    {c d : Config Request State Line Saved Local} {action : Schedule Line Input}
    (h : cpu.GuardedCovered holds masked c) (hStep : cpu.GuardedStep body guard c action d) :
    cpu.GuardedCovered holds masked d := by
  obtain ⟨hStep, hGuard⟩ := hStep
  cases action with
  | raise line =>
      cases hStep
      cases h with
      | foreground h => exact .foreground h
      | handler hHandler => exact .handler hHandler
  | interrupt line =>
      rw [Step, schedule, Option.ite_none_right_eq_some, Bool.and_eq_true] at hStep
      obtain ⟨⟨-, hAccepts⟩, hEq⟩ := hStep
      cases hEq
      cases h with
      | foreground h => exact .handler (hDiscipline.handler line _ _ h hAccepts (hGuard line rfl))
      | handler hHandler =>
          rw [hDiscipline.closed _ (hHandler.inv_of_refl fun _ => rfl)] at hAccepts
          cases hAccepts
  | proceed input => exact hDiscipline.proceed h hStep

/-- Every configuration of a run whose interrupts the guard lets in. -/
theorem GuardedDiscipline.covered_of_run (hDiscipline : cpu.GuardedDiscipline body guard holds masked)
    {c d : Config Request State Line Saved Local} {actions : List (Schedule Line Input)}
    (hStart : cpu.GuardedCovered holds masked c)
    (run : TransitionSystem.Run (cpu.GuardedStep body guard) c actions d) :
    cpu.GuardedCovered holds masked d :=
  run.invariant (cpu.GuardedCovered holds masked) hStart fun _ _ _ h hStep => hDiscipline.step h hStep

end Guarded
end Processor
