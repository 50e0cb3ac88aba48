import Mathlib

/-! Programs as trees of requests to their surroundings. A program is given a
meaning by the way its requests are answered; the rules here hold for every
set of requests. `Returns` is about the requests a complete call makes,
whatever the answers; `Ensures` is about a state that the answers come from
and that others may change between any two requests. `interpret` replaces
requests by programs, and `runAlone` serves them from a state of its own. -/

/-- A program that issues requests, each with the type of its reply. -/
inductive Interaction (Request : Type → Type) (α : Type) : Type 1 where
  | done (result : α)
  | ask {ρ : Type} (request : Request ρ) (next : ρ → Interaction Request α)

namespace Interaction

variable {Request : Type → Type} {α β : Type}

/-- Sequential composition: `f` goes on from the result of `p`. -/
def andThen (p : Interaction Request α) (f : α → Interaction Request β) : Interaction Request β :=
  match p with
  | .done a => f a
  | .ask r next => .ask r fun reply => (next reply).andThen f

instance : Monad (Interaction Request) where
  pure := .done
  bind := .andThen

/-- A single request. -/
def perform {ρ : Type} (request : Request ρ) : Interaction Request ρ :=
  .ask request .done

@[simp] theorem pure_eq (a : α) : (pure a : Interaction Request α) = .done a := rfl

@[simp] theorem done_bind (a : α) (f : α → Interaction Request β) :
    (.done a : Interaction Request α) >>= f = f a := rfl

@[simp] theorem ask_bind {ρ : Type} (r : Request ρ) (next : ρ → Interaction Request α)
    (f : α → Interaction Request β) : .ask r next >>= f = .ask r fun reply => next reply >>= f := rfl

@[simp] theorem perform_bind {ρ : Type} (r : Request ρ) (f : ρ → Interaction Request β) :
    perform r >>= f = .ask r f := rfl

section Trace

/-- A request together with the reply it got. -/
structure Exchange (Request : Type → Type) : Type 1 where
  {ρ : Type}
  request : Request ρ
  reply : ρ

/-- A call makes these exchanges, in this order, and returns. -/
inductive Returns : Interaction Request α → List (Exchange Request) → α → Prop where
  | done (a : α) : Returns (.done a) [] a
  | ask {ρ : Type} {r : Request ρ} {next : ρ → Interaction Request α} {reply : ρ}
      {rest : List (Exchange Request)} {a : α} (h : Returns (next reply) rest a) :
      Returns (.ask r next) (⟨r, reply⟩ :: rest) a

theorem returns_done_iff {a b : α} {trace : List (Exchange Request)} :
    Returns (.done a) trace b ↔ trace = [] ∧ b = a := by
  constructor
  · intro h
    cases h with
    | done => exact ⟨rfl, rfl⟩
  · rintro ⟨rfl, rfl⟩
    exact .done b

/-- A program that asks makes this exchange first, with some reply, and goes
on from it. -/
theorem returns_ask_iff {ρ : Type} {r : Request ρ} {next : ρ → Interaction Request α}
    {trace : List (Exchange Request)} {a : α} :
    Returns (.ask r next) trace a ↔
      ∃ reply rest, trace = ⟨r, reply⟩ :: rest ∧ Returns (next reply) rest a := by
  constructor
  · intro h
    cases h with
    | ask h => exact ⟨_, _, rfl, h⟩
  · rintro ⟨reply, rest, rfl, h⟩
    exact .ask h

/-- The exchanges of a sequence are those of its parts, one after the other. -/
theorem returns_bind_iff {p : Interaction Request α} {f : α → Interaction Request β}
    {trace : List (Exchange Request)} {b : β} :
    Returns (p >>= f) trace b ↔
      ∃ first a second, trace = first ++ second ∧ Returns p first a ∧ Returns (f a) second b := by
  induction p generalizing trace with
  | done a =>
      rw [done_bind]
      constructor
      · intro h
        exact ⟨[], a, trace, rfl, .done a, h⟩
      · rintro ⟨first, c, second, rfl, hFirst, hSecond⟩
        obtain ⟨rfl, rfl⟩ := returns_done_iff.mp hFirst
        exact hSecond
  | ask r next ih =>
      rw [ask_bind, returns_ask_iff]
      constructor
      · rintro ⟨reply, rest, rfl, h⟩
        obtain ⟨first, a, second, rfl, hFirst, hSecond⟩ := (ih reply).mp h
        exact ⟨_ :: first, a, second, rfl, .ask hFirst, hSecond⟩
      · rintro ⟨first, a, second, rfl, hFirst, hSecond⟩
        obtain ⟨reply, rest, rfl, hRest⟩ := returns_ask_iff.mp hFirst
        exact ⟨reply, rest ++ second, rfl, (ih reply).mpr ⟨rest, a, second, rfl, hRest, hSecond⟩⟩

/-- Whatever the replies, the program does not return. -/
def Diverges (p : Interaction Request α) : Prop :=
  ∀ trace a, ¬p.Returns trace a

theorem Diverges.ask {ρ : Type} {r : Request ρ} {next : ρ → Interaction Request α}
    (h : ∀ reply, (next reply).Diverges) : (Interaction.ask r next).Diverges := by
  intro trace a hReturns
  obtain ⟨reply, rest, -, hRest⟩ := returns_ask_iff.mp hReturns
  exact h reply rest a hRest

/-- A sequence whose second part never returns does not return either. -/
theorem Diverges.bind {p : Interaction Request α} {f : α → Interaction Request β}
    (h : ∀ a, (f a).Diverges) : (p >>= f).Diverges := by
  intro trace b hReturns
  obtain ⟨-, a, second, -, -, hSecond⟩ := returns_bind_iff.mp hReturns
  exact h a second b hSecond

end Trace

section Only

variable {allowed : ∀ ⦃ρ : Type⦄, Request ρ → Prop}

/-- Whatever the replies, the program makes no other than allowed requests. -/
def Only (allowed : ∀ ⦃ρ : Type⦄, Request ρ → Prop) : Interaction Request α → Prop
  | .done _ => True
  | .ask r next => allowed r ∧ ∀ reply, Only allowed (next reply)

@[simp] theorem only_done (a : α) : (.done a : Interaction Request α).Only allowed := trivial

@[simp] theorem only_perform_iff {ρ : Type} {r : Request ρ} : (perform r).Only allowed ↔ allowed r :=
  and_iff_left fun _ => trivial

/-- What makes few requests makes no more when more are allowed. -/
theorem Only.mono {weaker : ∀ ⦃ρ : Type⦄, Request ρ → Prop} {p : Interaction Request α}
    (h : p.Only allowed) (hWeaker : ∀ ⦃ρ : Type⦄ (r : Request ρ), allowed r → weaker r) :
    p.Only weaker := by
  induction p with
  | done a => trivial
  | ask r next ih => exact ⟨hWeaker r h.1, fun reply => ih reply (h.2 reply)⟩

theorem Only.bind {p : Interaction Request α} {f : α → Interaction Request β}
    (h : p.Only allowed) (hNext : ∀ a, (f a).Only allowed) : (p >>= f).Only allowed := by
  induction p with
  | done a => exact hNext a
  | ask r next ih => exact ⟨h.1, fun reply => ih reply (h.2 reply)⟩

/-- Both branches of a condition have to keep to what is allowed. -/
theorem Only.ite {c : Prop} [Decidable c] {p q : Interaction Request α} (hThen : p.Only allowed)
    (hElse : q.Only allowed) : (if c then p else q).Only allowed := by
  split
  · exact hThen
  · exact hElse

theorem Only.forall_trace {p : Interaction Request α} (h : p.Only allowed)
    {trace : List (Exchange Request)} {a : α} (hReturns : p.Returns trace a) :
    ∀ exchange ∈ trace, allowed exchange.request := by
  induction hReturns with
  | done a => exact fun _ hMem => (List.not_mem_nil hMem).elim
  | ask _ ih =>
      intro exchange hMem
      cases hMem with
      | head => exact h.1
      | tail _ hMem => exact ih (h.2 _) exchange hMem

/-- When every request that a program makes has some reply, it returns for
suitable replies. -/
theorem Only.exists_returns {p : Interaction Request α} (h : p.Only allowed)
    (hReply : ∀ ⦃ρ : Type⦄ (r : Request ρ), allowed r → Nonempty ρ) :
    ∃ trace a, p.Returns trace a := by
  induction p with
  | done a => exact ⟨[], a, .done a⟩
  | ask r next ih =>
      obtain ⟨reply⟩ := hReply r h.1
      obtain ⟨rest, a, hRest⟩ := ih reply (h.2 reply)
      exact ⟨_, a, .ask hRest⟩

end Only

section Ensures

variable {State Input : Type}
  {execute : ∀ ⦃ρ : Type⦄, Input → State → Request ρ → Option (ρ × State)}
  {rely : State → State → Prop} {inv : State → Prop}

/-- The program, started in a state, keeps the invariant at every request and
returns only in states that satisfy the postcondition, when before each
request and after the last one others may change the state as `rely` says.
A request without an answer never returns. -/
def Ensures (execute : ∀ ⦃ρ : Type⦄, Input → State → Request ρ → Option (ρ × State))
    (rely : State → State → Prop) (inv : State → Prop) (post : α → State → Prop) :
    Interaction Request α → State → Prop
  | .done a, s => ∀ t, rely s t → inv t ∧ post a t
  | .ask r next, s => ∀ t, rely s t → inv t ∧ ∀ input reply u,
      execute input t r = some (reply, u) → Ensures execute rely inv post (next reply) u

/-- What others do does not take the guarantee away. -/
theorem Ensures.stable (hTrans : ∀ s t u, rely s t → rely t u → rely s u) {post : α → State → Prop}
    {p : Interaction Request α} {s t : State} (h : Ensures execute rely inv post p s)
    (hRely : rely s t) : Ensures execute rely inv post p t := by
  cases p with
  | done a => exact fun u hNext => h u (hTrans s t u hRely hNext)
  | ask r next => exact fun u hNext => h u (hTrans s t u hRely hNext)

/-- The invariant holds where the program stands. -/
theorem Ensures.inv_of_refl (hRefl : ∀ s, rely s s) {post : α → State → Prop}
    {p : Interaction Request α} {s : State} (h : Ensures execute rely inv post p s) : inv s := by
  cases p with
  | done a => exact (h s (hRefl s)).1
  | ask r next => exact (h s (hRefl s)).1

/-- The rule of sequential composition. -/
theorem Ensures.bind (hRefl : ∀ s, rely s s) {post : β → State → Prop} {p : Interaction Request α}
    {f : α → Interaction Request β} {s : State}
    (h : Ensures execute rely inv (fun a t => Ensures execute rely inv post (f a) t) p s) :
    Ensures execute rely inv post (p >>= f) s := by
  induction p generalizing s with
  | done a => exact (h s (hRefl s)).2
  | ask r next ih =>
      intro t hRely
      exact ⟨(h t hRely).1, fun input reply u hExec => ih reply ((h t hRely).2 input reply u hExec)⟩

/-- The rule of consequence for the postcondition. -/
theorem Ensures.mono {post weaker : α → State → Prop} {p : Interaction Request α} {s : State}
    (h : Ensures execute rely inv post p s) (hPost : ∀ a t, post a t → weaker a t) :
    Ensures execute rely inv weaker p s := by
  induction p generalizing s with
  | done a => exact fun t hRely => ⟨(h t hRely).1, hPost a t (h t hRely).2⟩
  | ask r next ih =>
      intro t hRely
      exact ⟨(h t hRely).1, fun input reply u hExec => ih reply ((h t hRely).2 input reply u hExec)⟩

/-- The rule of consequence for the invariant. -/
theorem Ensures.mono_inv {weaker : State → Prop} {post : α → State → Prop} {p : Interaction Request α}
    {s : State} (h : Ensures execute rely inv post p s) (hInv : ∀ t, inv t → weaker t) :
    Ensures execute rely weaker post p s := by
  induction p generalizing s with
  | done a => exact fun t hRely => ⟨hInv t (h t hRely).1, (h t hRely).2⟩
  | ask r next ih =>
      intro t hRely
      refine ⟨hInv t (h t hRely).1, fun input reply u hExec => ?_⟩
      exact ih reply ((h t hRely).2 input reply u hExec)

/-- A program that is only allowed requests under which a local invariant is
kept, keeps it until it returns. -/
theorem Only.ensures {allowed : ∀ ⦃ρ : Type⦄, Request ρ → Prop} {p : Interaction Request α}
    (hOnly : Only allowed p) (kept : State → Prop) (hInv : ∀ s, kept s → inv s)
    (hRely : ∀ s t, kept s → rely s t → kept t)
    (hExecute : ∀ {ρ : Type} (input : Input) (s : State) (r : Request ρ) (reply : ρ) (t : State),
      allowed r → kept s → execute input s r = some (reply, t) → kept t)
    {s : State} (hStart : kept s) : Ensures execute rely inv (fun _ t => kept t) p s := by
  induction p generalizing s with
  | done a =>
      intro t hNext
      have hKept := hRely s t hStart hNext
      exact ⟨hInv t hKept, hKept⟩
  | ask r next ih =>
      intro t hNext
      have hKept := hRely s t hStart hNext
      refine ⟨hInv t hKept, fun input reply u hExec => ?_⟩
      exact ih reply (hOnly.2 reply) (hExecute input t r reply u hOnly.1 hKept hExec)

end Ensures

section Interpret

variable {Other : Type → Type} {handler : ∀ ⦃ρ : Type⦄, Request ρ → Interaction Other ρ}

/-- The program with each of its requests replaced by a program. -/
def interpret (handler : ∀ ⦃ρ : Type⦄, Request ρ → Interaction Other ρ) :
    Interaction Request α → Interaction Other α
  | .done a => .done a
  | .ask r next => handler r >>= fun reply => interpret handler (next reply)

theorem bind_assoc {γ : Type} (p : Interaction Request α) (f : α → Interaction Request β)
    (g : β → Interaction Request γ) : p >>= f >>= g = p >>= fun a => f a >>= g := by
  induction p with
  | done a => rfl
  | ask r next ih =>
      rw [ask_bind, ask_bind, ask_bind]
      congr 1
      funext reply
      exact ih reply

@[simp] theorem interpret_perform {ρ : Type} (r : Request ρ) :
    (perform r).interpret handler = handler r := by
  show (handler r >>= fun reply => .done reply) = handler r
  generalize handler r = p
  induction p with
  | done a => rfl
  | ask s next ih =>
      rw [ask_bind]
      congr 1
      funext reply
      exact ih reply

/-- Replacing the requests of a sequence replaces them in its parts. -/
@[simp] theorem interpret_bind (p : Interaction Request α) (f : α → Interaction Request β) :
    (p >>= f).interpret handler = p.interpret handler >>= fun a => (f a).interpret handler := by
  induction p with
  | done a => rfl
  | ask r next ih =>
      rw [ask_bind, interpret, interpret, bind_assoc]
      congr 1
      funext reply
      exact ih reply

/-- Requests that are passed on and back again. -/
theorem interpret_interpret {Outer : Type → Type} (pass : ∀ ⦃ρ : Type⦄, Request ρ → Outer ρ)
    {back : ∀ ⦃ρ : Type⦄, Outer ρ → Interaction Request ρ}
    (h : ∀ ⦃ρ : Type⦄ (r : Request ρ), back (pass r) = perform r) (p : Interaction Request α) :
    (p.interpret fun _ r => perform (pass r)).interpret back = p := by
  induction p with
  | done a => rfl
  | ask r next ih =>
      rw [interpret, interpret_bind, interpret_perform, h, perform_bind]
      congr 1
      funext reply
      exact ih reply

end Interpret

section Alone

variable {State : Type} {serve : ∀ ⦃ρ : Type⦄, State → Request ρ → Option (ρ × State)}

/-- The program runs alone: each request is served in the state that the one
before it left. A request that is not served ends the run. -/
def runAlone (serve : ∀ ⦃ρ : Type⦄, State → Request ρ → Option (ρ × State)) :
    Interaction Request α → State → Option (α × State)
  | .done a, s => some (a, s)
  | .ask r next, s => (serve s r).bind fun served => runAlone serve (next served.1) served.2

theorem runAlone_ask {ρ : Type} {r : Request ρ} {next : ρ → Interaction Request α} {s t : State}
    {reply : ρ} (h : serve s r = some (reply, t)) :
    (Interaction.ask r next).runAlone serve s = (next reply).runAlone serve t := by
  rw [runAlone, h]
  rfl

/-- The rule of sequential composition. -/
theorem runAlone_bind {p : Interaction Request α} {f : α → Interaction Request β} {s t : State} {a : α}
    (h : p.runAlone serve s = some (a, t)) : (p >>= f).runAlone serve s = (f a).runAlone serve t := by
  induction p generalizing s with
  | done b =>
      cases h
      rfl
  | ask r next ih =>
      rw [runAlone] at h
      rw [ask_bind, runAlone]
      cases hServe : serve s r with
      | none =>
          rw [hServe] at h
          cases h
      | some served =>
          rw [hServe] at h
          exact ih served.1 h

end Alone

end Interaction
