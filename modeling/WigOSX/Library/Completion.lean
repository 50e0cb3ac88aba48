import WigOSX.Library.Preemption

/-! Programs that get to their end. `Completes` is the total counterpart of
`Ensures` for a program that nobody disturbs; `Inevitable` is its counterpart
for the steps of a system: whatever the devices contribute, a goal is reached
after finitely many of them. -/

namespace Interaction

variable {Request : Type → Type} {State Input α β : Type}

section Orderly

variable {allowed fatal last : ∀ ⦃ρ : Type⦄, Request ρ → Prop}

/-- Every request is allowed, up to a fatal one, and a last one is followed by
the return. -/
def Orderly (allowed fatal last : ∀ ⦃ρ : Type⦄, Request ρ → Prop) : Interaction Request α → Prop
  | .done _ => True
  | .ask r next => allowed r ∧ (fatal r ∨ ∀ reply, Orderly allowed fatal last (next reply)) ∧
      (last r → ∀ reply, ∃ a, next reply = .done a)

theorem Only.orderly_bind {p : Interaction Request α} {f : α → Interaction Request β}
    (h : p.Only fun _ r => allowed r ∧ ¬last r) (hNext : ∀ a, (f a).Orderly allowed fatal last) :
    (p >>= f).Orderly allowed fatal last := by
  induction p with
  | done a => exact hNext a
  | ask r next ih => exact ⟨h.1.1, .inr fun reply => ih reply (h.2 reply), fun hLast => (h.1.2 hLast).elim⟩

theorem Orderly.ite {c : Prop} [Decidable c] {p q : Interaction Request α}
    (hThen : p.Orderly allowed fatal last) (hElse : q.Orderly allowed fatal last) :
    (if c then p else q).Orderly allowed fatal last := by
  split
  · exact hThen
  · exact hElse

end Orderly

section Completes

variable {execute : ∀ ⦃ρ : Type⦄, Input → State → Request ρ → Option (ρ × State)}
  {stuck : State → Prop}

/-- What a sequence of exchanges does to the state. -/
inductive Executes (execute : ∀ ⦃ρ : Type⦄, Input → State → Request ρ → Option (ρ × State)) :
    State → List (Exchange Request) → State → Prop where
  | nil (s : State) : Executes execute s [] s
  | cons {ρ : Type} {r : Request ρ} {reply : ρ} {input : Input} {s t u : State}
      {rest : List (Exchange Request)} (h : execute input s r = some (reply, t))
      (hRest : Executes execute t rest u) : Executes execute s (⟨r, reply⟩ :: rest) u

/-- Left alone, the program returns in a state that satisfies the
postcondition, or comes to stand in a stuck state. -/
def Completes (execute : ∀ ⦃ρ : Type⦄, Input → State → Request ρ → Option (ρ × State))
    (stuck : State → Prop) (post : α → State → Prop) : Interaction Request α → State → Prop
  | .done a, s => post a s
  | .ask r next, s => stuck s ∨ ∀ input, ∃ reply t,
      execute input s r = some (reply, t) ∧ Completes execute stuck post (next reply) t

theorem Completes.mono {post weaker : α → State → Prop} {p : Interaction Request α} {s : State}
    (h : Completes execute stuck post p s) (hPost : ∀ a t, post a t → weaker a t) :
    Completes execute stuck weaker p s := by
  induction p generalizing s with
  | done a => exact hPost a s h
  | ask r next ih =>
      cases h with
      | inl hStuck => exact .inl hStuck
      | inr hNext =>
          refine .inr fun input => ?_
          obtain ⟨reply, t, hExec, hRest⟩ := hNext input
          exact ⟨reply, t, hExec, ih reply hRest⟩

/-- The rule of sequential composition. -/
theorem Completes.bind {post : β → State → Prop} {p : Interaction Request α}
    {f : α → Interaction Request β} {s : State}
    (h : Completes execute stuck (fun a t => Completes execute stuck post (f a) t) p s) :
    Completes execute stuck post (p >>= f) s := by
  induction p generalizing s with
  | done a => exact h
  | ask r next ih =>
      cases h with
      | inl hStuck => exact .inl hStuck
      | inr hNext =>
          refine .inr fun input => ?_
          obtain ⟨reply, t, hExec, hRest⟩ := hNext input
          exact ⟨reply, t, hExec, ih reply hRest⟩

/-- A program that keeps an invariant under which its requests are answered
gets to its end. The end is that of one of its traces. -/
theorem Ensures.completes {rely : State → State → Prop} {inv : State → Prop}
    {allowed fatal last : ∀ ⦃ρ : Type⦄, Request ρ → Prop} (hRefl : ∀ s, rely s s)
    (hAnswer : ∀ {ρ : Type} (s : State) (r : Request ρ), inv s → allowed r →
      stuck s ∨ ∀ input, ∃ reply t, execute input s r = some (reply, t))
    (hFatal : ∀ {ρ : Type} (input : Input) (s : State) (r : Request ρ) (reply : ρ) (t : State),
      fatal r → execute input s r = some (reply, t) → ¬inv t)
    {post : α → State → Prop} {p : Interaction Request α} {s : State}
    (hOrderly : p.Orderly allowed fatal last) (h : Ensures execute rely inv post p s) :
    Completes execute stuck (fun a t => post a t ∧ ∃ trace, p.Returns trace a ∧ Executes execute s trace t)
      p s := by
  induction p generalizing s with
  | done a => exact ⟨(h s (hRefl s)).2, [], .done a, .nil s⟩
  | ask r next ih =>
      obtain ⟨hInv, hNext⟩ := h s (hRefl s)
      obtain ⟨hAllowed, hSafe, -⟩ := hOrderly
      cases hAnswer s r hInv hAllowed with
      | inl hStuck => exact .inl hStuck
      | inr hAnswered =>
          refine .inr fun input => ?_
          obtain ⟨reply, t, hExec⟩ := hAnswered input
          have hRest := hNext input reply t hExec
          cases hSafe with
          | inl hIsFatal => exact absurd (hRest.inv_of_refl hRefl) (hFatal input s r reply t hIsFatal hExec)
          | inr hSafe =>
              refine ⟨reply, t, hExec, (ih reply (hSafe reply) hRest).mono fun a u hEnd => ?_⟩
              obtain ⟨hPost, trace, hReturns, hExecutes⟩ := hEnd
              exact ⟨hPost, _, .ask hReturns, .cons hExec hExecutes⟩

end Completes
end Interaction

namespace TransitionSystem

variable {State Label Input : Type*} {step : State → Label → State → Prop} {label : Input → Label}

/-- Whatever the inputs, steps with these labels lead to the goal. -/
inductive Inevitable (step : State → Label → State → Prop) (label : Input → Label)
    (goal : State → Prop) : State → Prop where
  | now {s : State} (h : goal s) : Inevitable step label goal s
  | later {s : State} (next : Input → State) (hStep : ∀ input, step s (label input) (next input))
      (h : ∀ input, Inevitable step label goal (next input)) : Inevitable step label goal s

namespace Inevitable

variable {goal : State → Prop} {s : State}

/-- For every stream of inputs there is a run to the goal. -/
theorem run (h : Inevitable step label goal s) (inputs : ℕ → Input) :
    ∃ n t, Run step s ((List.range n).map fun k => label (inputs k)) t ∧ goal t := by
  induction h generalizing inputs with
  | now h => exact ⟨0, _, .nil, h⟩
  | later next hStep _ ih =>
      obtain ⟨n, t, hRun, hGoal⟩ := ih (inputs 0) fun k => inputs (k + 1)
      refine ⟨n + 1, t, ?_, hGoal⟩
      rw [List.range_succ_eq_map, List.map_cons, List.map_map]
      exact hRun.cons (hStep (inputs 0))

end Inevitable
end TransitionSystem

namespace Processor

open Interaction (Completes)
open TransitionSystem (Inevitable)

variable {Request : Type → Type} {State Line Saved Input Local : Type} [DecidableEq Line]
  {cpu : Processor Request State Line Saved Input} {body : Local → Interaction Request Local}
  {goal : Config Request State Line Saved Local → Prop} {stuck : State → Prop}

/-- A foreground program that completes leads to its return. -/
theorem inevitable_foreground {post : Local → State → Prop} {p : Interaction Request Local} {s : State}
    {pending : Line → Bool} (h : Completes cpu.execute stuck post p s)
    (hStuck : ∀ q t, stuck t → goal ⟨t, q, [], pending⟩)
    (hGoal : ∀ a t, post a t → Inevitable (cpu.Step body) .proceed goal ⟨t, .done a, [], pending⟩) :
    Inevitable (cpu.Step body) .proceed goal ⟨s, p, [], pending⟩ := by
  induction p generalizing s with
  | done a => exact hGoal a s h
  | ask r next ih =>
      cases h with
      | inl hIsStuck => exact .now (hStuck _ s hIsStuck)
      | inr hNext =>
          choose reply t hExec hRest using hNext
          refine .later (fun input => ⟨t input, next (reply input), [], pending⟩) (fun input => ?_)
            fun input => ih (reply input) (hRest input)
          show (cpu.execute input s r).map _ = _
          rw [hExec input]
          rfl

/-- A handler that completes leads back to what it interrupted. -/
theorem inevitable_handler {post : Unit → State → Prop} {h : Interaction Request Unit} {t : State}
    {p : Interaction Request Local} {saved : Saved} {frames : List (Saved × Interaction Request Unit)}
    {pending : Line → Bool} (hHandler : Completes cpu.execute (fun _ => False) post h t)
    (hGoal : ∀ u, post () u →
      Inevitable (cpu.Step body) .proceed goal ⟨cpu.restore saved u, p, frames, pending⟩) :
    Inevitable (cpu.Step body) .proceed goal ⟨t, p, (saved, h) :: frames, pending⟩ := by
  induction h generalizing t with
  | done result => exact .later (fun _ => _) (fun _ => rfl) fun _ => hGoal t hHandler
  | ask r next ih =>
      have hNext := hHandler.resolve_left id
      choose reply u hExec hRest using hNext
      refine .later (fun input => ⟨u input, p, (saved, next (reply input)) :: frames, pending⟩)
        (fun input => ?_) fun input => ih (reply input) (hRest input)
      show (cpu.execute input t r).map _ = _
      rw [hExec input]
      rfl

end Processor
