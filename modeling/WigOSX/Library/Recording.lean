import WigOSX.Library.Preemption

/-! Runs with a record. A recorder writes down answered requests with their
replies, and every interrupt that is taken. The record has no influence on the
run. A promise about the complete record of a program survives every step that
executes the program, so what holds of the complete calls of handlers and of
the loop body holds of whole runs. -/

open Interaction (Exchange Only Returns returns_done_iff)

/-- The result of a program that has nothing left to ask. -/
def Interaction.result {Request : Type → Type} {α : Type} : Interaction Request α → Option α
  | .done a => some a
  | .ask _ _ => none

theorem Interaction.eq_done_of_result {Request : Type → Type} {α : Type} {p : Interaction Request α}
    {a : α} (h : p.result = some a) : p = .done a := by
  cases p with
  | done b => rw [Option.some.inj h]
  | ask r next => cases h

/-- What is written down. -/
structure Recorder (Request : Type → Type) (Line Event : Type) : Type 1 where
  note : ∀ ⦃ρ : Type⦄, Request ρ → ρ → List Event
  interrupted : Line → Event

namespace Recorder

variable {Request : Type → Type} {Line Event α β : Type} (R : Recorder Request Line Event)

/-- The record of a complete call. -/
def noteAll (trace : List (Exchange Request)) : List Event :=
  trace.flatMap fun exchange => R.note exchange.request exchange.reply

@[simp] theorem noteAll_nil : R.noteAll [] = [] := rfl

@[simp] theorem noteAll_cons (exchange : Exchange Request) (trace : List (Exchange Request)) :
    R.noteAll (exchange :: trace) = R.note exchange.request exchange.reply ++ R.noteAll trace := rfl

/-- The notes of a trace are those of its parts, in order. -/
@[simp] theorem noteAll_append (first second : List (Exchange Request)) :
    R.noteAll (first ++ second) = R.noteAll first ++ R.noteAll second :=
  List.flatMap_append

/-- Every answer to the request is recorded by such events only. -/
def Writes (admits : Event → Prop) ⦃ρ : Type⦄ (request : Request ρ) : Prop :=
  ∀ reply, ∀ event ∈ R.note request reply, admits event

/-- A program whose requests write only certain events leaves only those in
the record. -/
theorem noteAll_writes {admits : Event → Prop} {p : Interaction Request α}
    (h : p.Only (R.Writes admits)) {trace : List (Exchange Request)} {a : α}
    (hReturns : p.Returns trace a) : ∀ event ∈ R.noteAll trace, admits event := by
  intro event hEvent
  obtain ⟨exchange, hExchange, hNote⟩ := List.mem_flatMap.mp hEvent
  exact h.forall_trace hReturns exchange hExchange exchange.reply event hNote

/-- However the program returns, the record that it then has is kept. -/
def Promises (keep : List Event → α → Prop) (p : Interaction Request α) (past : List Event) : Prop :=
  ∀ trace a, p.Returns trace a → keep (past ++ R.noteAll trace) a

variable {R} {keep : List Event → α → Prop} {past : List Event}

theorem Promises.done {a : α} (h : R.Promises keep (.done a) past) : keep past a := by
  have hKeep := h [] a (.done a)
  rwa [noteAll_nil, List.append_nil] at hKeep

/-- One answered request. -/
theorem Promises.ask {ρ : Type} {r : Request ρ} {next : ρ → Interaction Request α}
    (h : R.Promises keep (.ask r next) past) (reply : ρ) :
    R.Promises keep (next reply) (past ++ R.note r reply) := by
  intro trace a hReturns
  rw [List.append_assoc]
  exact h (⟨r, reply⟩ :: trace) a (.ask hReturns)

end Recorder

namespace Processor

variable {Request : Type → Type} {State Line Saved Input Local Event : Type}

/-- A configuration with the record of the run that led to it. -/
structure Recorded (Request : Type → Type) (State Line Saved Local Event : Type) : Type 1 where
  config : Config Request State Line Saved Local
  record : List Event

variable (cpu : Processor Request State Line Saved Input)
  (body : Local → Interaction Request Local) (R : Recorder Request Line Event)

/-- What the next request of a program is recorded by. -/
def answerEvents {α : Type} (input : Input) (s : State) : Interaction Request α → List Event
  | .done _ => []
  | .ask r _ => ((cpu.execute input s r).map fun answer => R.note r answer.1).getD []

/-- What a step adds to the record. -/
def events (c : Config Request State Line Saved Local) : Schedule Line Input → List Event
  | .raise _ => []
  | .interrupt line => [R.interrupted line]
  | .proceed input =>
      match c.frames with
      | [] => cpu.answerEvents R input c.state c.foreground
      | (_, handler) :: _ => cpu.answerEvents R input c.state handler

variable {cpu} in
/-- The events of an answer are what the recorder notes of the request and its
reply. -/
theorem answerEvents_ask {α ρ : Type} {r : Request ρ} (next : ρ → Interaction Request α) {input : Input}
    {s t : State} {reply : ρ} (hExec : cpu.execute input s r = some (reply, t)) :
    cpu.answerEvents R input s (.ask r next) = R.note r reply := by
  show ((cpu.execute input s r).map _).getD [] = _
  rw [hExec]
  rfl

section Steps

variable [DecidableEq Line]

/-- A step of the processor, recorded. -/
def RecordedStep (x : Recorded Request State Line Saved Local Event) (action : Schedule Line Input)
    (y : Recorded Request State Line Saved Local Event) : Prop :=
  cpu.Step body x.config action y.config ∧ y.record = x.record ++ cpu.events R x.config action

variable {cpu body R}

/-- Every run has a record. -/
theorem exists_recorded {c d : Config Request State Line Saved Local} {actions : List (Schedule Line Input)}
    (run : TransitionSystem.Run (cpu.Step body) c actions d) (past : List Event) :
    ∃ record, TransitionSystem.Run (cpu.RecordedStep body R) ⟨c, past⟩ actions ⟨d, record⟩ := by
  induction run with
  | nil => exact ⟨past, .nil⟩
  | snoc prior last ih =>
      obtain ⟨record, hRun⟩ := ih
      exact ⟨_, .snoc hRun ⟨last, rfl⟩⟩

/-- A recorded run is a run. -/
theorem run_of_recorded {x y : Recorded Request State Line Saved Local Event}
    {actions : List (Schedule Line Input)} (run : TransitionSystem.Run (cpu.RecordedStep body R) x actions y) :
    TransitionSystem.Run (cpu.Step body) x.config actions y.config := by
  induction run with
  | nil => exact .nil
  | snoc prior last ih => exact .snoc ih last.1

variable (cpu body R)

/-- Everything that one recorded step can do. -/
inductive Move : Recorded Request State Line Saved Local Event → Schedule Line Input →
    Recorded Request State Line Saved Local Event → Prop where
  | raise {s : State} {p : Interaction Request Local} {frames : List (Saved × Interaction Request Unit)}
      {pending : Line → Bool} {record : List Event} (line : Line) :
      Move ⟨⟨s, p, frames, pending⟩, record⟩ (.raise line)
        ⟨⟨s, p, frames, Function.update pending line true⟩, record⟩
  | interrupt {s : State} {p : Interaction Request Local} {frames : List (Saved × Interaction Request Unit)}
      {pending : Line → Bool} {record : List Event} (line : Line) (hAccepts : cpu.accepts s = true) :
      Move ⟨⟨s, p, frames, pending⟩, record⟩ (.interrupt line)
        ⟨⟨cpu.enter s, p, (cpu.save s, cpu.handler line) :: frames, Function.update pending line false⟩,
          record ++ [R.interrupted line]⟩
  | again {s : State} (carried : Local) {input : Input} {pending : Line → Bool} {record : List Event} :
      Move ⟨⟨s, .done carried, [], pending⟩, record⟩ (.proceed input)
        ⟨⟨s, body carried, [], pending⟩, record⟩
  | work {ρ : Type} {r : Request ρ} {next : ρ → Interaction Request Local} {input : Input} {s t : State}
      {reply : ρ} {pending : Line → Bool} {record : List Event}
      (hExec : cpu.execute input s r = some (reply, t)) :
      Move ⟨⟨s, .ask r next, [], pending⟩, record⟩ (.proceed input)
        ⟨⟨t, next reply, [], pending⟩, record ++ R.note r reply⟩
  | leave {s : State} {input : Input} {p : Interaction Request Local}
      {frames : List (Saved × Interaction Request Unit)} {pending : Line → Bool} {record : List Event}
      {saved : Saved} :
      Move ⟨⟨s, p, (saved, .done ()) :: frames, pending⟩, record⟩ (.proceed input)
        ⟨⟨cpu.restore saved s, p, frames, pending⟩, record⟩
  | serve {ρ : Type} {r : Request ρ} {next : ρ → Interaction Request Unit} {input : Input} {s t : State}
      {reply : ρ} {p : Interaction Request Local} {frames : List (Saved × Interaction Request Unit)}
      {pending : Line → Bool} {record : List Event} {saved : Saved}
      (hExec : cpu.execute input s r = some (reply, t)) :
      Move ⟨⟨s, p, (saved, .ask r next) :: frames, pending⟩, record⟩ (.proceed input)
        ⟨⟨t, p, (saved, next reply) :: frames, pending⟩, record ++ R.note r reply⟩

variable {cpu body R}

theorem RecordedStep.move {x y : Recorded Request State Line Saved Local Event}
    {action : Schedule Line Input} (h : cpu.RecordedStep body R x action y) :
    cpu.Move body R x action y := by
  obtain ⟨⟨s, p, frames, pending⟩, record⟩ := x
  obtain ⟨d, later⟩ := y
  obtain ⟨hStep, hRecord⟩ := h
  dsimp only at hStep hRecord
  subst hRecord
  cases action with
  | raise line =>
      cases hStep
      rw [events, List.append_nil]
      exact .raise line
  | interrupt line =>
      rw [Step, schedule, Option.ite_none_right_eq_some, Bool.and_eq_true] at hStep
      obtain ⟨⟨-, hAccepts⟩, hEq⟩ := hStep
      cases hEq
      exact .interrupt line hAccepts
  | proceed input =>
      cases frames with
      | nil =>
          cases p with
          | done carried =>
              cases hStep
              rw [show cpu.events R ⟨s, .done carried, [], pending⟩ (.proceed input) = [] from rfl,
                List.append_nil]
              exact .again carried
          | ask r next =>
              obtain ⟨⟨reply, t⟩, hExec, rfl⟩ := Option.map_eq_some_iff.mp hStep
              have hEvents := answerEvents_ask R next hExec
              rw [show cpu.events R ⟨s, .ask r next, [], pending⟩ (.proceed input) = _ from hEvents]
              exact .work hExec
      | cons frame frames =>
          obtain ⟨saved, handler⟩ := frame
          cases handler with
          | done result =>
              cases hStep
              rw [show cpu.events R ⟨s, p, (saved, .done result) :: frames, pending⟩ (.proceed input) = []
                from rfl, List.append_nil]
              exact .leave
          | ask r next =>
              obtain ⟨⟨reply, t⟩, hExec, rfl⟩ := Option.map_eq_some_iff.mp hStep
              have hEvents := answerEvents_ask R next hExec
              rw [show cpu.events R ⟨s, p, (saved, .ask r next) :: frames, pending⟩ (.proceed input) = _
                from hEvents]
              exact .serve hExec

end Steps

/-- The lines of the interrupts that a schedule takes. -/
def interruptsTaken (actions : List (Schedule Line Input)) : List Line :=
  actions.filterMap fun action =>
    match action with
    | .interrupt line => some line
    | _ => none

/-- The interrupts taken in a schedule, read off it one action at a time. -/
theorem interruptsTaken_snoc (actions : List (Schedule Line Input)) (action : Schedule Line Input) :
    interruptsTaken (actions ++ [action]) = interruptsTaken actions ++ interruptsTaken [action] :=
  List.filterMap_append

section Lines

variable {cpu body R} (f : Event → Option Line)

/-- What the recorder never notes is not found in the events of any answer. -/
theorem answerEvents_filterMap {α : Type} (hNote : ∀ ⦃ρ : Type⦄ (r : Request ρ) reply,
    (R.note r reply).filterMap f = []) (input : Input) (s : State) (p : Interaction Request α) :
    (cpu.answerEvents R input s p).filterMap f = [] := by
  cases p with
  | done a => rfl
  | ask r next =>
      show (((cpu.execute input s r).map _).getD []).filterMap f = []
      cases cpu.execute input s r with
      | none => rfl
      | some answer => exact hNote r answer.1

/-- The record has the interrupts of the schedule, in its order. -/
theorem record_filterMap [DecidableEq Line] (hNote : ∀ ⦃ρ : Type⦄ (r : Request ρ) reply,
    (R.note r reply).filterMap f = []) (hLine : ∀ line, f (R.interrupted line) = some line)
    {x y : Recorded Request State Line Saved Local Event} {actions : List (Schedule Line Input)}
    (run : TransitionSystem.Run (cpu.RecordedStep body R) x actions y) :
    y.record.filterMap f = x.record.filterMap f ++ interruptsTaken actions := by
  refine run.history_invariant (fun past z => z.record.filterMap f =
    x.record.filterMap f ++ interruptsTaken past) (List.append_nil _).symm ?_
  intro past z action w hPast hStep
  rw [hStep.2, List.filterMap_append, hPast, interruptsTaken_snoc, List.append_assoc]
  congr 2
  cases action with
  | raise line => rfl
  | interrupt line =>
      show [R.interrupted line].filterMap f = [line]
      rw [List.filterMap_cons_some (hLine line), List.filterMap_nil]
  | proceed input =>
      rw [events]
      split
      · exact answerEvents_filterMap f hNote input _ _
      · exact answerEvents_filterMap f hNote input _ _

end Lines

/-- Handlers that run masked are entered from the foreground only. -/
theorem Discipline.frames_eq_nil {cpu : Processor Request State Line Saved Input}
    {body : Local → Interaction Request Local} {inv : State → Prop} {rely : State → State → Prop}
    {masked : State → State → Prop} {start : Local → State → Prop}
    (hDiscipline : cpu.Discipline body inv rely masked start) {c : Config Request State Line Saved Local}
    (h : cpu.Covered inv rely masked start c) (hAccepts : cpu.accepts c.state = true) : c.frames = [] := by
  cases h with
  | foreground h => rfl
  | handler hForeground hInv _ hHandler =>
      have hClosed := hDiscipline.closed _ _ (hHandler.inv_of_refl fun _ => rfl)
      exact absurd (hClosed.symm.trans hAccepts) Bool.noConfusion

section Books

variable [DecidableEq Line] {cpu body R}

/-- What relates the state to the record at every request and interrupt does
so along every run, whatever the programs are. -/
theorem books_of_run (books : State → List Event → Prop)
    (hExecute : ∀ {ρ : Type} (input : Input) (s : State) (r : Request ρ) (reply : ρ) (t : State)
      (record : List Event), books s record → cpu.execute input s r = some (reply, t) →
      books t (record ++ R.note r reply))
    (hEnter : ∀ s line record, books s record → books (cpu.enter s) (record ++ [R.interrupted line]))
    (hRestore : ∀ s saved record, books s record → books (cpu.restore saved s) record)
    {x y : Recorded Request State Line Saved Local Event} {actions : List (Schedule Line Input)}
    (run : TransitionSystem.Run (cpu.RecordedStep body R) x actions y)
    (hStart : books x.config.state x.record) : books y.config.state y.record := by
  refine run.invariant (fun z => books z.config.state z.record) hStart fun z action w h hStep => ?_
  cases hStep.move with
  | raise => exact h
  | interrupt line hAccepts => exact hEnter _ line _ h
  | again carried => exact h
  | work hExec => exact hExecute _ _ _ _ _ _ h hExec
  | leave => exact hRestore _ _ _ h
  | serve hExec => exact hExecute _ _ _ _ _ _ h hExec

end Books

section Service

/-- A record of complete services, each begun by its interrupt, and of the
foreground's own events between them. -/
inductive Services (segment : Line → List Event → Prop) (own : Event → Prop) : List Event → Prop where
  | nil : Services segment own []
  | own {record : List Event} {event : Event} (h : Services segment own record) (hOwn : own event) :
      Services segment own (record ++ [event])
  | service {record part : List Event} {line : Line} (h : Services segment own record)
      (hSegment : segment line part) : Services segment own (record ++ R.interrupted line :: part)

/-- The foreground runs and all services are complete, or one service is
being completed. -/
inductive InService (segment : Line → List Event → Prop) (own : Event → Prop) :
    Recorded Request State Line Saved Local Event → Prop where
  | foreground {s : State} {p : Interaction Request Local} {pending : Line → Bool} {record : List Event}
      (hRecord : Services R segment own record) (hOwn : p.Only (R.Writes own)) :
      InService segment own ⟨⟨s, p, [], pending⟩, record⟩
  | handler {s : State} {p : Interaction Request Local} {pending : Line → Bool} {record part : List Event}
      {saved : Saved} {h : Interaction Request Unit} {line : Line}
      (hRecord : Services R segment own record) (hOwn : p.Only (R.Writes own))
      (hPart : R.Promises (fun part _ => segment line part) h part) :
      InService segment own ⟨⟨s, p, [(saved, h)], pending⟩, record ++ R.interrupted line :: part⟩

variable {R} {segment : Line → List Event → Prop} {own : Event → Prop}

/-- Events of the foreground may follow the services without breaking the
pattern. -/
theorem Services.owns {record more : List Event} (h : Services R segment own record)
    (hMore : ∀ event ∈ more, own event) : Services R segment own (record ++ more) := by
  induction more generalizing record with
  | nil => rwa [List.append_nil]
  | cons event more ih =>
      rw [List.append_cons]
      exact ih (h.own (hMore event (List.mem_cons_self))) fun other hOther =>
        hMore other (List.mem_cons_of_mem _ hOther)

/-- Every service may be described by all that is known about the events in
the record. -/
theorem Services.mono {finer : Line → List Event → Prop} {record : List Event}
    (h : Services R segment own record)
    (hFiner : ∀ line part, segment line part → (∀ event ∈ part, event ∈ record) → finer line part) :
    Services R finer own record := by
  induction h with
  | nil => exact .nil
  | own _ hOwn ih =>
      refine .own (ih fun line part hSegment hPart => hFiner line part hSegment fun event hEvent => ?_) hOwn
      exact List.mem_append_left _ (hPart event hEvent)
  | service _ hSegment ih =>
      refine .service (ih fun line part hOther hPart => hFiner line part hOther fun event hEvent => ?_)
        (hFiner _ _ hSegment fun event hEvent => ?_)
      · exact List.mem_append_left _ (hPart event hEvent)
      · exact List.mem_append_right _ (List.mem_cons_of_mem _ hEvent)

/-- With no handler on the stack every service in the record is complete. -/
theorem InService.idle {x : Recorded Request State Line Saved Local Event}
    (h : InService R segment own x) (hIdle : x.config.frames = []) : Services R segment own x.record := by
  cases h with
  | foreground hRecord => exact hRecord
  | handler => cases hIdle

variable {cpu body}

/-- When interrupts are taken from the foreground only, each is served
completely before anything else is recorded. -/
theorem InService.move [DecidableEq Line] {x y : Recorded Request State Line Saved Local Event}
    (hBody : ∀ carried, (body carried).Only (R.Writes own))
    (hHandler : ∀ line, R.Promises (fun part _ => segment line part) (cpu.handler line) [])
    (hSingle : cpu.accepts x.config.state = true → x.config.frames = [])
    {action : Schedule Line Input} (h : InService R segment own x) (hMove : cpu.Move body R x action y) :
    InService R segment own y := by
  cases hMove with
  | raise =>
      cases h with
      | foreground hRecord hOwn => exact .foreground hRecord hOwn
      | handler hRecord hOwn hPart => exact .handler hRecord hOwn hPart
  | interrupt line hAccepts =>
      cases hSingle hAccepts
      cases h with
      | foreground hRecord hOwn => exact .handler hRecord hOwn (hHandler line)
  | again carried =>
      cases h with
      | foreground hRecord hOwn => exact .foreground hRecord (hBody carried)
  | @work ρ r next input s t reply pending record hExec =>
      cases h with
      | foreground hRecord hOwn => exact .foreground (hRecord.owns (hOwn.1 reply)) (hOwn.2 reply)
  | leave =>
      cases h with
      | handler hRecord hOwn hPart => exact .foreground (hRecord.service hPart.done) hOwn
  | @serve ρ r next input s t reply p frames pending record saved hExec =>
      cases h with
      | @handler _ _ _ record part _ _ line hRecord hOwn hPart =>
          rw [List.append_assoc, List.cons_append]
          exact .handler hRecord hOwn (hPart.ask reply)

end Service

section Loop

variable (own : Event → Prop) [DecidablePred own]

/-- The foreground with its own part of the record keeps its promise, and the
running handlers add nothing to that part. -/
structure InLoop (keep : List Event → Local → Prop)
    (x : Recorded Request State Line Saved Local Event) : Prop where
  promise : R.Promises keep x.config.foreground (x.record.filter own)
  frames : ∀ frame ∈ x.config.frames, frame.2.Only (R.Writes fun event => ¬own event)
  writes : x.config.foreground.Only (R.Writes own)

variable {own R cpu body} {keep : List Event → Local → Prop}

/-- None of the events is the foreground's own, so nothing is left of them. -/
theorem filter_others {events : List Event} (h : ∀ event ∈ events, ¬own event) :
    events.filter own = [] := by
  rw [List.filter_eq_nil_iff]
  intro event hEvent
  rw [decide_eq_true_eq]
  exact h event hEvent

/-- All of the events are the foreground's own, so all of them are left. -/
theorem filter_owns {events : List Event} (h : ∀ event ∈ events, own event) :
    events.filter own = events := by
  rw [List.filter_eq_self]
  intro event hEvent
  rw [decide_eq_true_eq]
  exact h event hEvent

/-- What the loop body promises in one round, from a record that was kept,
holds between rounds of every run. -/
theorem InLoop.move [DecidableEq Line] {x y : Recorded Request State Line Saved Local Event}
    (hBody : ∀ carried, (body carried).Only (R.Writes own))
    (hRound : ∀ past carried, keep past carried → R.Promises keep (body carried) past)
    (hHandler : ∀ line, (cpu.handler line).Only (R.Writes fun event => ¬own event))
    (hInterrupted : ∀ line, ¬own (R.interrupted line))
    {action : Schedule Line Input} (h : InLoop R own keep x) (hMove : cpu.Move body R x action y) :
    InLoop R own keep y := by
  cases hMove with
  | raise => exact ⟨h.promise, h.frames, h.writes⟩
  | interrupt line hAccepts =>
      refine ⟨?_, fun frame hFrame => ?_, h.writes⟩
      · rw [List.filter_append, filter_others (List.forall_mem_singleton.mpr (hInterrupted line)),
          List.append_nil]
        exact h.promise
      · cases List.mem_cons.mp hFrame with
        | inl hNew => exact hNew ▸ hHandler line
        | inr hOld => exact h.frames frame hOld
  | again carried => exact ⟨hRound _ carried h.promise.done, h.frames, hBody carried⟩
  | @work ρ r next input s t reply pending record hExec =>
      refine ⟨?_, h.frames, h.writes.2 reply⟩
      rw [List.filter_append, filter_owns (h.writes.1 reply)]
      exact h.promise.ask reply
  | leave => exact ⟨h.promise, fun frame hFrame => h.frames frame (List.mem_cons_of_mem _ hFrame), h.writes⟩
  | @serve ρ r next input s t reply p frames pending record saved hExec =>
      have hFrame : (Interaction.ask r next).Only (R.Writes fun event => ¬own event) :=
        h.frames (saved, .ask r next) List.mem_cons_self
      refine ⟨?_, fun frame hMem => ?_, h.writes⟩
      · rw [List.filter_append, filter_others (hFrame.1 reply), List.append_nil]
        exact h.promise
      · cases List.mem_cons.mp hMem with
        | inl hNew => exact hNew ▸ hFrame.2 reply
        | inr hOld => exact h.frames frame (List.mem_cons_of_mem _ hOld)

end Loop
end Processor
