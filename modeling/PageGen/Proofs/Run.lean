import PageGen.Run

/-! Reasoning about computations with a log. A bound computation is taken apart
once here, on the side of its result and on the side of its log, and a
predicate on what may be logged and what may go wrong is carried through it. -/
namespace PageGen

theorem except_bind_eq_ok_iff {ε α β : Type} {first : Except ε α} {next : α → Except ε β}
    {final : β} :
    (first >>= next) = .ok final ↔ ∃ value, first = .ok value ∧ next value = .ok final := by
  cases first <;> simp [bind, Except.bind]

theorem except_map_eq_ok_iff {ε α β : Type} {result : Except ε α} {f : α → β} {final : β} :
    result.map f = .ok final ↔ ∃ value, result = .ok value ∧ f value = final := by
  cases result <;> simp [Except.map]

theorem exists_except_map_eq_ok_iff {ε α β : Type} {result : Except ε α} {f : α → β} :
    (∃ final, result.map f = .ok final) ↔ ∃ value, result = .ok value := by
  cases result <;> simp [Except.map]

theorem except_map_eq_error_iff {ε α β : Type} {result : Except ε α} {f : α → β} {cause : ε} :
    result.map f = .error cause ↔ result = .error cause := by
  cases result <;> simp [Except.map]

namespace Run

variable {ε ε' α β : Type} {run : Run ε α} {next : α → Run ε β}

/-- A bound computation succeeds exactly if both of its parts do. -/
theorem result_bind_eq_ok_iff {final : β} :
    (run >>= next).result = .ok final ↔
      ∃ value, run.result = .ok value ∧ (next value).result = .ok final := by
  rw [result_bind]
  cases run.result <;> simp [Except.bind]

/-- A bound computation fails with what its first failing part fails with. -/
theorem result_bind_eq_error_iff {cause : ε} :
    (run >>= next).result = .error cause ↔
      run.result = .error cause ∨
        ∃ value, run.result = .ok value ∧ (next value).result = .error cause := by
  rw [result_bind]
  cases run.result <;> simp [Except.bind]

/-- The result of a bound computation depends on the results of its parts
only, not on their logs. -/
theorem result_bind_congr {run' : Run ε α} {next' : α → Run ε β}
    (hRun : run.result = run'.result)
    (hNext : ∀ value, (next value).result = (next' value).result) :
    (run >>= next).result = (run' >>= next').result := by
  simp only [result_bind, hRun, hNext]

/-- What follows a run matters for the results that the run can have. -/
theorem bind_congr_of_result {next' : α → Run ε β}
    (hNext : ∀ value, run.result = .ok value → next value = next' value) :
    run >>= next = run >>= next' := by
  change Run.bind run next = Run.bind run next'
  unfold Run.bind
  cases hRun : run.result with
  | ok value => simp only [hNext value hRun]
  | error cause => rfl

theorem map_eq (f : α → β) (run : Run ε α) : f <$> run = ⟨run.events, run.result.map f⟩ := by
  change Run.bind run (fun value => pure (f value)) = _
  unfold Run.bind
  cases h : run.result <;> simp [Except.map]

theorem map_inFrame (f : α → β) (frame : Frame) (body : Run ε α) :
    inFrame frame (f <$> body) = f <$> inFrame frame body := by
  simp only [map_eq, inFrame]

theorem map_mapFailure (f : α → β) (g : ε → ε') (run : Run ε α) :
    (f <$> run).mapFailure g = f <$> run.mapFailure g := by
  rw [map_eq, map_eq]
  unfold mapFailure
  cases run.result <;> rfl

/-- Every event of a bound computation comes from its first part, or from the
rest that follows on a success. -/
theorem mem_events_bind {event : Event} (hMem : event ∈ (run >>= next).events) :
    event ∈ run.events ∨ ∃ value, run.result = .ok value ∧ event ∈ (next value).events := by
  cases h : run.result with
  | ok value =>
      rw [events_bind_ok h, List.mem_append] at hMem
      exact hMem.imp_right fun hRest => ⟨value, rfl, hRest⟩
  | error cause =>
      rw [events_bind_error h] at hMem
      exact Or.inl hMem

theorem result_mapFailure (f : ε → ε') (run : Run ε α) :
    (run.mapFailure f).result =
      match run.result with
      | .ok value => .ok value
      | .error cause => .error (f cause) := by
  unfold mapFailure
  cases run.result <;> rfl

/-- A computation renamed in its failures succeeds with the same result. -/
theorem result_mapFailure_eq_ok_iff {f : ε → ε'} {value : α} :
    (run.mapFailure f).result = .ok value ↔ run.result = .ok value := by
  rw [result_mapFailure]
  cases run.result <;> simp

theorem result_mapFailure_eq_error_iff {f : ε → ε'} {cause : ε'} :
    (run.mapFailure f).result = .error cause ↔
      ∃ original, run.result = .error original ∧ f original = cause := by
  rw [result_mapFailure]
  cases run.result <;> simp

/-- Whatever the computation results in satisfies `results`. Nothing is said
about a failure. -/
def Yields (results : α → Prop) (run : Run ε α) : Prop :=
  ∀ value, run.result = .ok value → results value

namespace Yields

theorem pure {results : α → Prop} {value : α} (hValue : results value) :
    Yields results (Pure.pure value : Run ε α) := by
  intro other hOther
  obtain rfl := Except.ok.inj hOther
  exact hValue

theorem bind {results : β → Prop} (hNext : ∀ value, Yields results (next value)) :
    Yields results (run >>= next) := by
  intro final hFinal
  obtain ⟨value, -, hRest⟩ := result_bind_eq_ok_iff.mp hFinal
  exact hNext value final hRest

end Yields

/-- Everything that is logged satisfies `logs`, and whatever the computation
fails with satisfies `causes`. Nothing is said about a result. -/
structure Within (logs : Event → Prop) (causes : ε → Prop) (run : Run ε α) : Prop where
  logged : ∀ event ∈ run.events, logs event
  failed : ∀ cause, run.result = .error cause → causes cause

namespace Within

variable {logs logs' : Event → Prop} {causes causes' : ε → Prop}

theorem pure (value : α) : Within logs causes (Pure.pure value : Run ε α) :=
  ⟨by simp, by simp⟩

theorem log {event : Event} (hEvent : logs event) :
    Within logs causes (Run.log event : Run ε Unit) :=
  ⟨by simpa using hEvent, by simp⟩

theorem fail {cause : ε} (hCause : causes cause) :
    Within logs causes (Run.fail cause : Run ε α) :=
  ⟨by simp, by simpa using hCause⟩

/-- Both parts of a bound computation keep within the same limits. The second
is asked only about results that the first can have. -/
theorem bind (hRun : Within logs causes run)
    (hNext : ∀ value, run.result = .ok value → Within logs causes (next value)) :
    Within logs causes (run >>= next) := by
  constructor
  · intro event hMem
    rcases mem_events_bind hMem with hFirst | ⟨value, hValue, hRest⟩
    · exact hRun.logged event hFirst
    · exact (hNext value hValue).logged event hRest
  · intro cause hCause
    rcases result_bind_eq_error_iff.mp hCause with hFirst | ⟨value, hValue, hRest⟩
    · exact hRun.failed cause hFirst
    · exact (hNext value hValue).failed cause hRest

theorem mono (hRun : Within logs causes run) (hLogs : ∀ event, logs event → logs' event)
    (hCauses : ∀ cause, causes cause → causes' cause) : Within logs' causes' run :=
  ⟨fun event hMem => hLogs event (hRun.logged event hMem),
    fun cause hCause => hCauses cause (hRun.failed cause hCause)⟩

end Within

end Run

end PageGen
