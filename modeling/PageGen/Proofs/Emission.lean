import PageGen.Proofs.Run
import PageGen.Output.Emission

/-! Emission in three plain steps: finding out what becomes of a node, writing
it, and recording it. What is recorded depends on the unsupported kind only,
never on what was written. -/
namespace PageGen

variable {σ α : Type}

/-- The kind that the target could not write, if there is one. -/
def Emission.unsupported? : Emission α → Option NodeKind
  | .written _ => none
  | .skipped => none
  | .unsupported kind => some kind

/-- Writes what there is to write. -/
def Emission.writeOn (write : α → σ → Run Failure σ) (state : σ) : Emission α → Run Failure σ
  | .written text => write text state
  | .skipped => pure state
  | .unsupported _ => pure state

theorem Output.emit_eq (options : Options) (write : α → σ → Run Failure σ)
    (emission : Run Failure (Emission α)) (output : Output σ) :
    output.emit options write emission = (do
      let outcome ← emission
      let state ← outcome.writeOn write output.state
      let unsupported ← recordEmission options output.unsupported outcome
      pure ⟨state, unsupported⟩) := by
  unfold Output.emit
  congr 1
  funext outcome
  cases outcome <;> rfl

/-- Recording is by the unsupported kind alone. -/
theorem recordEmission_result_eq_ok_iff {options : Options} {kinds kinds' : List NodeKind}
    {outcome : Emission α} :
    (recordEmission options kinds outcome).result = .ok kinds' ↔
      match outcome.unsupported? with
      | none => kinds' = kinds
      | some kind => options.failOnUnsupported = false ∧ kinds' = addKind kinds kind := by
  cases outcome with
  | written text => simp [recordEmission, Emission.unsupported?, eq_comm]
  | skipped => simp [recordEmission, Emission.unsupported?, eq_comm]
  | unsupported kind =>
      rw [recordEmission]
      cases options.failOnUnsupported with
      | true => simp [Emission.unsupported?]
      | false =>
          rw [if_neg Bool.false_ne_true, Run.result_bind_eq_ok_iff]
          simp [Emission.unsupported?, eq_comm]

/-- An emission succeeds exactly if each of its three steps does. -/
theorem Output.emit_result_eq_ok_iff {options : Options} {write : α → σ → Run Failure σ}
    {emission : Run Failure (Emission α)} {output final : Output σ} :
    (output.emit options write emission).result = .ok final ↔
      ∃ outcome, emission.result = .ok outcome ∧
        (outcome.writeOn write output.state).result = .ok final.state ∧
        (recordEmission options output.unsupported outcome).result = .ok final.unsupported := by
  rw [Output.emit_eq]
  simp only [Run.result_bind_eq_ok_iff, Run.result_pure, Except.ok.injEq]
  constructor
  · rintro ⟨outcome, hOutcome, state, hState, kinds, hKinds, rfl⟩
    exact ⟨outcome, hOutcome, hState, hKinds⟩
  · rintro ⟨outcome, hOutcome, hState, hKinds⟩
    exact ⟨outcome, hOutcome, _, hState, _, hKinds, rfl⟩

/-- What is emitted depends on the result of the emission only, not on its log. -/
theorem Output.emit_result_congr {options : Options} {write : α → σ → Run Failure σ}
    {emission emission' : Run Failure (Emission α)} (hSame : emission.result = emission'.result)
    (output : Output σ) :
    (output.emit options write emission).result = (output.emit options write emission').result := by
  rw [Output.emit_eq, Output.emit_eq]
  exact Run.result_bind_congr hSame fun _ => rfl

end PageGen
