import PageGen.Log

/-! Computations that write a log. The log of a run that fails is kept up to
the failure. -/
namespace PageGen

/-- A finished computation: its log, and its result or what ended it. -/
structure Run (ε α : Type) where
  events : List Event
  result : Except ε α

namespace Run

variable {ε ε' α β : Type}

/-- Goes on with the result. A failure ends the run, and the log stays. -/
def bind (run : Run ε α) (next : α → Run ε β) : Run ε β :=
  match run.result with
  | .ok value =>
    let rest := next value
    ⟨run.events ++ rest.events, rest.result⟩
  | .error cause => ⟨run.events, .error cause⟩

instance : Monad (Run ε) where
  pure value := ⟨[], .ok value⟩
  bind := Run.bind

def fail (cause : ε) : Run ε α := ⟨[], .error cause⟩

def log (event : Event) : Run ε Unit := ⟨[event], .ok ()⟩

def ofExcept (result : Except ε α) : Run ε α := ⟨[], result⟩

/-- Runs the body of a component in its frame, which is taken off the stack
whatever the body ends with. -/
def inFrame (frame : Frame) (body : Run ε α) : Run ε α :=
  ⟨.entered frame :: (body.events ++ [.left]), body.result⟩

def mapFailure (f : ε → ε') (run : Run ε α) : Run ε' α :=
  ⟨run.events, run.result.mapError f⟩

@[simp] theorem events_pure (value : α) : (pure value : Run ε α).events = [] := rfl

@[simp] theorem result_pure (value : α) : (pure value : Run ε α).result = .ok value := rfl

@[simp] theorem events_log (event : Event) : (log event : Run ε Unit).events = [event] := rfl

@[simp] theorem result_log (event : Event) : (log event : Run ε Unit).result = .ok () := rfl

@[simp] theorem events_fail (cause : ε) : (fail cause : Run ε α).events = [] := rfl

@[simp] theorem result_fail (cause : ε) : (fail cause : Run ε α).result = .error cause := rfl

@[simp] theorem events_ofExcept (result : Except ε α) : (ofExcept result).events = [] := rfl

@[simp] theorem result_ofExcept (result : Except ε α) : (ofExcept result).result = result := rfl

theorem ofExcept_ok (value : α) : (ofExcept (.ok value) : Run ε α) = pure value := rfl

theorem ofExcept_error (cause : ε) : (ofExcept (.error cause) : Run ε α) = fail cause := rfl

theorem fail_bind (cause : ε) (next : α → Run ε β) : fail cause >>= next = fail cause := rfl

@[simp] theorem events_inFrame (frame : Frame) (body : Run ε α) :
    (inFrame frame body).events = .entered frame :: (body.events ++ [.left]) := rfl

@[simp] theorem result_inFrame (frame : Frame) (body : Run ε α) :
    (inFrame frame body).result = body.result := rfl

@[simp] theorem result_bind (run : Run ε α) (next : α → Run ε β) :
    (run >>= next).result = run.result.bind fun value => (next value).result := by
  cases h : run.result <;> simp [Bind.bind, Run.bind, Except.bind, h]

theorem events_bind_ok {run : Run ε α} {value : α} (hRun : run.result = .ok value)
    (next : α → Run ε β) : (run >>= next).events = run.events ++ (next value).events := by
  simp [Bind.bind, Run.bind, hRun]

theorem events_bind_error {run : Run ε α} {cause : ε} (hRun : run.result = .error cause)
    (next : α → Run ε β) : (run >>= next).events = run.events := by
  simp [Bind.bind, Run.bind, hRun]

instance : LawfulMonad (Run ε) := LawfulMonad.mk' (Run ε)
  (fun run => by
    cases run with
    | mk events result =>
      cases result <;> simp [Functor.map, Run.bind])
  (fun value next => by simp [Bind.bind, Run.bind, pure])
  (fun run first second => by
    cases run with
    | mk events result =>
      cases result with
      | error cause => rfl
      | ok value =>
        cases h : (first value).result <;> simp [Bind.bind, Run.bind, h])

end Run

end PageGen
