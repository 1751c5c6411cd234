import TreeWalk.Proofs.Evaluation.Overflow
import TreeWalk.Proofs.Evaluation.Returns
import TreeWalk.Proofs.Session.Interpreting
import TreeWalk.Proofs.Session.Scopes

/-!
# The outcomes of runs

A run that comes to an end has one of four outcomes.  Its source text is rejected, its
program is executed to the end, one of its statements fails, or one of them finds the
output full.  Which one it is shows in the flags and the diagnostics of the result.
No statement at the top level of an accepted program ends by returning.
-/

namespace TreeWalk

/-- What can become of a run. -/
inductive Outcome where
  | rejected
  | completed
  | failed
  | cutOff
deriving DecidableEq

/-- The outcome that the flags and errors of a result show. -/
def RunResult.outcome (result : RunResult) : Outcome :=
  if result.rejected then .rejected
  else if result.failed then .failed
  else if result.errors.isEmpty then .completed
  else .cutOff

/-- Diagnostics come in the order of their phases, and none is from the phase in which
programs run. -/
def Diagnostic.InPhases (diagnostics : List Diagnostic) : Prop :=
  ∃ lexical syntactic static : List Diagnostic,
    diagnostics = lexical ++ syntactic ++ static ∧
      (∀ one ∈ lexical, one.phase = .lexical) ∧
      (∀ one ∈ syntactic, one.phase = .syntactic) ∧
      ∀ one ∈ static, one.phase = .static

namespace Session

/-- What an outcome says about a run: which flags are set, which diagnostics there are,
how many statements have been executed and, if the run was interrupted, in which
statement. -/
def HasOutcome
    (session : Session)
    (fuel : Nat)
    (source : String)
    (result : RunResult)
    (after : Session) : Outcome -> Prop
  | .rejected =>
    result.rejected = true ∧ result.failed = false ∧ result.executed = 0 ∧
      after.machine = session.machine ∧ result.diagnostics ≠ [] ∧
      Diagnostic.InPhases result.diagnostics
  | .completed =>
    result.rejected = false ∧ result.failed = false ∧ result.diagnostics = [] ∧
      result.executed = (session.program source).length
  | .failed =>
    result.rejected = false ∧ result.failed = true ∧ ∃ line fault final,
      result.diagnostics =
        [⟨line, .runtime, (Error.runtime line (RuntimeFault.message fault)).message⟩] ∧
      Stops fuel session.echo (session.program source) (session.ready source) result.executed
        (.failure line fault) final
  | .cutOff =>
    result.rejected = false ∧ result.failed = false ∧ ∃ final,
      result.diagnostics = [⟨0, .lexical, session.machine.output.fullText⟩] ∧
      Stops fuel session.echo (session.program source) (session.ready source) result.executed
        (.outputFull session.machine.output.fullText) final

section Outcomes

variable
  {session after : Session}
  {fuel : Nat}
  {source : String}
  {result : RunResult}

/-- The flags and the diagnostics tell the outcomes apart. -/
theorem HasOutcome.eq_outcome
    {outcome : Outcome}
    (has : session.HasOutcome fuel source result after outcome) :
    outcome = result.outcome := by
  have noErrors : result.errors.isEmpty = result.diagnostics.isEmpty := by
    simp [RunResult.diagnostics]
  unfold RunResult.outcome
  rw [noErrors]
  cases outcome with
  | rejected => simp [has.1]
  | completed =>
    obtain ⟨accepted, noFailure, none, -⟩ := has
    simp [accepted, noFailure, none]
  | failed =>
    obtain ⟨accepted, failure, -⟩ := has
    simp [accepted, failure]
  | cutOff =>
    obtain ⟨accepted, noFailure, _, one, -⟩ := has
    simp [accepted, noFailure, one]

/-- Static errors are reported in the order of the phases. -/
theorem inPhases_staticErrors (session : Session) (source : String) :
    Diagnostic.InPhases ((session.staticErrors source).map (·.diagnostic)) := by
  refine ⟨(Scan.ofSource source).errors.map (·.diagnostic),
    (parseTokens (Scan.ofSource source).tokens (Scan.ofSource source).endToken
      session.nextId).errors.map (·.toError.diagnostic),
    (session.resolution source).errors.toList.map (·.toError.diagnostic), ?_, ?_, ?_, ?_⟩
  · simp [staticErrors, parseProgram, Parsed.withScan, Function.comp_def]
  · intro one member
    obtain ⟨error, isError, rfl⟩ := List.mem_map.mp member
    obtain ⟨item, -, found⟩ := List.mem_filterMap.mp isError
    cases item with
    | token token => cases found
    | fault line fault =>
      cases found
      rfl
  · intro one member
    obtain ⟨error, -, rfl⟩ := List.mem_map.mp member
    rfl
  · intro one member
    obtain ⟨error, -, rfl⟩ := List.mem_map.mp member
    rfl

/-- A run with static errors is a rejected one. -/
theorem hasOutcome_rejected
    (rejects : session.staticErrors source ≠ [])
    (runs : session.run fuel source = some (result, after)) :
    session.HasOutcome fuel source result after .rejected := by
  rw [run_of_rejected rejects] at runs
  cases runs
  refine ⟨rfl, rfl, rfl, rfl, ?_, inPhases_staticErrors session source⟩
  simpa [RunResult.diagnostics] using rejects

/-- The outcome of an accepted run is decided by how its program is interpreted. -/
theorem hasOutcome_accepted
    (accepts : session.staticErrors source = [])
    (runs : session.run fuel source = some (result, after)) :
    ∃ outcome, session.HasOutcome fuel source result after outcome := by
  rw [run_eq_finished accepts, Option.map_eq_some_iff] at runs
  obtain ⟨_, isResult, isFinished⟩ := runs
  cases isFinished
  cases ended : session.interpreted fuel source with
  | mk count rest =>
    obtain ⟨interruption, final⟩ := rest
    rw [ended] at isResult
    cases interruption with
    | none =>
      cases isResult
      have isCount := count_of_interpret ended
      rw [Nat.zero_add] at isCount
      exact ⟨.completed, rfl, rfl, rfl, isCount⟩
    | some interruption =>
      have stops := stops_of_interpret ended
      cases interruption with
      | failure line fault =>
        cases isResult
        exact ⟨.failed, rfl, rfl, line, fault, final, rfl, stops⟩
      | outputFull text =>
        have isText : ∀ interruption ∈ (session.interpreted fuel source).2.1,
            (fullTextInvariant session.machine.output.fullText).interrupts interruption :=
          (Invariant.interpreted _ (fun _ _ _ => trivial) rfl 0).2.2.2
        obtain rfl : text = session.machine.output.fullText :=
          isText _ (congrArg (·.2.1) ended) text rfl
        cases isResult
        exact ⟨.cutOff, rfl, rfl, final, rfl, stops⟩
      | outOfFuel => cases isResult

end Outcomes

/-- Every run that comes to an end has exactly one outcome, and in an accepted run no
statement at the top level ends by returning, whatever the fuel and the machine. -/
theorem every_run_has_one_outcome
    {session after : Session}
    {fuel : Nat}
    {source : String}
    {result : RunResult}
    (runs : session.run fuel source = some (result, after)) :
    (∃! outcome, session.HasOutcome fuel source result after outcome) ∧
      (result.rejected = false -> ∀ statement ∈ session.program source, ∀ steps,
        NeverReturns (Eval.execute steps statement)) := by
  by_cases accepts : session.staticErrors source = []
  · -- There is one outcome because the result shows it, whatever the program.
    obtain ⟨outcome, has⟩ := hasOutcome_accepted accepts runs
    refine ⟨⟨outcome, has, fun other hasOther => hasOther.eq_outcome.trans has.eq_outcome.symm⟩,
      fun _ statement member steps => ?_⟩
    exact neverReturns_of_mem rfl (root_sound accepts) member steps
  · have has := hasOutcome_rejected accepts runs
    refine ⟨⟨.rejected, has, fun other hasOther => hasOther.eq_outcome.trans has.eq_outcome.symm⟩,
      fun accepted => ?_⟩
    rw [has.1] at accepted
    cases accepted

/-- A text whose third statement reads a variable that is not there, in a branch that a
function which returns has led to. -/
def strayingText : String :=
  "fn f() \x7b return \"a\"; \x7d f(); \x7b if (f() == \"a\") \x7b nowhere; \x7d \x7d print \"b\";"

/-- A program that fails at its third statement, on a name that is nowhere. -/
theorem every_run_has_one_outcome_straying :
    ∃ result after, idle.run 20 strayingText = some (result, after) ∧ result.executed = 2 ∧
      idle.HasOutcome 20 strayingText result after .failed ∧
      (∃! outcome, idle.HasOutcome 20 strayingText result after outcome) ∧
      ∀ statement ∈ idle.program strayingText, ∀ steps,
        NeverReturns (Eval.execute steps statement) := by
  have fails : (idle.run 20 strayingText).any (fun one =>
      one.1.executed == 2 && !one.1.rejected && one.1.outcome == .failed) = true := by
    decide +kernel
  obtain ⟨⟨result, after⟩, runs, shows⟩ := (Option.any_eq_true _ _).mp fails
  simp only [Bool.and_eq_true, Bool.not_eq_true', beq_iff_eq] at shows
  obtain ⟨⟨isExecuted, accepted⟩, isOutcome⟩ := shows
  have ran := every_run_has_one_outcome runs
  obtain ⟨outcome, has, -⟩ := ran.1
  refine ⟨result, after, runs, isExecuted, ?_, ran.1, ran.2 accepted⟩
  rw [← isOutcome, ← has.eq_outcome]
  exact has

end Session
end TreeWalk
