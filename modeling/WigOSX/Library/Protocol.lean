import WigOSX.Library.Interaction

/-! Protocols over requests. A protocol moves through phases with the requests
of a program and the replies to them. A program conforms when it makes only
requests that its phase admits, for all replies that are possible there. When
the state follows the phases, a program that conforms is safe to run. -/

/-- Some replies lead the program to a target, through exchanges that pass. -/
def Interaction.MayReach {Request : Type → Type} {α : Type}
    (passes : ∀ ⦃ρ : Type⦄, Request ρ → ρ → Prop) (target : ∀ ⦃ρ : Type⦄, Request ρ → Prop) :
    Interaction Request α → Prop
  | .done _ => False
  | .ask r next => target r ∨ ∃ reply, passes r reply ∧ MayReach passes target (next reply)

/-- What a program may ask for, depending on what it asked for before. -/
structure Protocol (Request : Type → Type) (Phase : Type) where
  admits : ∀ ⦃ρ : Type⦄, Phase → Request ρ → Prop
  possible : ∀ ⦃ρ : Type⦄, Phase → Request ρ → ρ → Prop
  advance : ∀ ⦃ρ : Type⦄, Phase → Request ρ → ρ → Phase

namespace Protocol

variable {Request : Type → Type} {Phase State Input α β : Type} {P : Protocol Request Phase}

/-- The program follows the protocol from a phase on and returns only in
phases that satisfy the postcondition. -/
def Conforms (P : Protocol Request Phase) (post : α → Phase → Prop) :
    Interaction Request α → Phase → Prop
  | .done a, phase => post a phase
  | .ask r next, phase => P.admits phase r ∧ ∀ reply, P.possible phase r reply →
      Conforms P post (next reply) (P.advance phase r reply)

theorem Conforms.mono {post weaker : α → Phase → Prop} {p : Interaction Request α} {phase : Phase}
    (h : P.Conforms post p phase) (hPost : ∀ a last, post a last → weaker a last) :
    P.Conforms weaker p phase := by
  induction p generalizing phase with
  | done a => exact hPost a phase h
  | ask r next ih => exact ⟨h.1, fun reply hReply => ih reply (h.2 reply hReply)⟩

/-- The rule of sequential composition. -/
theorem Conforms.bind {post : β → Phase → Prop} {p : Interaction Request α}
    {f : α → Interaction Request β} {phase : Phase}
    (h : P.Conforms (fun a last => P.Conforms post (f a) last) p phase) :
    P.Conforms post (p >>= f) phase := by
  induction p generalizing phase with
  | done a => exact h
  | ask r next ih => exact ⟨h.1, fun reply hReply => ih reply (h.2 reply hReply)⟩

/-- An admitted request takes a state that is in step with a phase to one
that is in step with the next phase, and its reply was possible. -/
def Tracks (P : Protocol Request Phase)
    (execute : ∀ ⦃ρ : Type⦄, Input → State → Request ρ → Option (ρ × State))
    (track : Phase → State → Prop) : Prop :=
  ∀ ⦃ρ : Type⦄ (phase : Phase) (r : Request ρ) (input : Input) (s : State) (reply : ρ) (t : State),
    track phase s → P.admits phase r → execute input s r = some (reply, t) →
    P.possible phase r reply ∧ track (P.advance phase r reply) t

/-- A program that conforms runs undisturbed in tracked states. -/
theorem Conforms.ensures
    {execute : ∀ ⦃ρ : Type⦄, Input → State → Request ρ → Option (ρ × State)}
    {track : Phase → State → Prop} {inv : State → Prop} {post : α → Phase → Prop}
    {p : Interaction Request α} {phase : Phase} {s : State} (hTracks : P.Tracks execute track)
    (hInv : ∀ phase s, track phase s → inv s) (h : P.Conforms post p phase) (hs : track phase s) :
    Interaction.Ensures execute Eq inv (fun a t => ∃ last, post a last ∧ track last t) p s := by
  induction p generalizing phase s with
  | done a =>
      rintro t rfl
      exact ⟨hInv phase s hs, phase, h, hs⟩
  | ask r next ih =>
      rintro t rfl
      refine ⟨hInv phase s hs, fun input reply u hExec => ?_⟩
      obtain ⟨hPossible, hNext⟩ := hTracks phase r input s reply u hs h.1 hExec
      exact ih reply (h.2 reply hPossible) hNext

end Protocol
