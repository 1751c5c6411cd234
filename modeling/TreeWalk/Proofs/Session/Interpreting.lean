import TreeWalk.Proofs.Evaluation.Failures

/-!
# Interpreting statement by statement

Interpreting a program either gets to its end, or it is interrupted in one of its
statements, after all statements before this one have been executed.  Such a
statement is interrupted in its task or, if its value is to be printed, in printing.
-/

namespace TreeWalk
namespace Session

/-- What is done with the value of an expression at the top level. -/
def echoed (echo : Bool) (value : Value) : Eval Unit :=
  if echo then Eval.printLine value else pure ()

/-- A top-level expression is evaluated, then echoed. -/
theorem executeTopLevel_expression (fuel : Nat) (echo : Bool) (value : Expr) :
    executeTopLevel fuel echo (.expression value) =
      Eval.evaluate fuel value >>= fun result => echoed echo result :=
  rfl

/-- Only expressions are treated in a way of their own at the top level. -/
theorem expression_or_other (statement : Stmt) :
    (∃ value, statement = .expression value) ∨ ∀ value, statement ≠ .expression value := by
  cases statement with
  | expression value => exact .inl ⟨value, rfl⟩
  | _ => exact .inr nofun

/-- Any other top-level statement is executed. -/
theorem executeTopLevel_other
    {statement : Stmt}
    (fuel : Nat)
    (echo : Bool)
    (other : ∀ value, statement ≠ .expression value) :
    executeTopLevel fuel echo statement =
      Eval.execute fuel statement >>= fun _ => pure () := by
  cases statement with
  | expression value => exact absurd rfl (other value)
  | _ => rfl

theorem topLevelTask_other
    {statement : Stmt}
    (fuel : Nat)
    (other : ∀ value, statement ≠ .expression value) :
    topLevelTask fuel statement = .execute fuel statement := by
  cases statement with
  | expression value => exact absurd rfl (other value)
  | _ => rfl

section Statements

variable
  {fuel : Nat}
  {echo : Bool}
  {statement : Stmt}
  {machine final : Machine}
  {interruption : Interruption}

/-- A statement is interrupted if its task is. -/
theorem executeTopLevel_of_fails
    (fails : (topLevelTask fuel statement).Fails machine interruption final) :
    executeTopLevel fuel echo statement machine = .error interruption final := by
  cases statement <;> exact Eval.bind_of_error fails _

/-- A statement is interrupted in its task, or when its value is printed. -/
theorem executeTopLevel_eq_error
    (stopped : executeTopLevel fuel echo statement machine = .error interruption final) :
    (topLevelTask fuel statement).Fails machine interruption final ∨
      ∃ value result after, echo = true ∧ statement = .expression value ∧
        Eval.evaluate fuel value machine = .ok result after ∧
        Eval.printLine result after = .error interruption final := by
  rcases expression_or_other statement with ⟨value, rfl⟩ | other
  · rw [executeTopLevel_expression] at stopped
    rcases Eval.bind_eq_error stopped with fails | ⟨result, after, evaluated, stopped⟩
    · exact .inl fails
    · cases echo with
      | false => cases stopped
      | true => exact .inr ⟨value, result, after, rfl, rfl, evaluated, stopped⟩
  · rw [executeTopLevel_other fuel echo other] at stopped
    rw [topLevelTask_other fuel other]
    rcases Eval.bind_eq_error stopped with fails | ⟨_, _, _, done⟩
    · exact .inl fails
    · cases done

end Statements

/-- Interpreting a program is interrupted in the statement with an index, after those
before it have been executed. -/
inductive Stops (fuel : Nat) (echo : Bool) (program : List Stmt) (machine : Machine) (index : Nat)
    (interruption : Interruption) (final : Machine) : Prop
  | intro
      {before rest : List Stmt}
      {statement : Stmt}
      {middle : Machine}
      (isProgram : program = before ++ statement :: rest)
      (isIndex : before.length = index)
      (executed : interpret fuel echo before 0 machine = (index, none, middle))
      (stopped : executeTopLevel fuel echo statement middle = .error interruption final)

section Programs

variable
  {fuel executed count index : Nat}
  {echo : Bool}
  {program before rest : List Stmt}
  {machine middle final : Machine}
  {interruption : Interruption}

/-- Behind a statement that ends, the rest is interpreted. -/
theorem interpret_of_ok
    {first : Stmt}
    (done : executeTopLevel fuel echo first machine = .ok () middle)
    (executed : Nat) :
    interpret fuel echo (first :: rest) executed machine =
      interpret fuel echo rest (executed + 1) middle := by
  rw [interpret, done]

/-- A statement that is interrupted stops the program there. -/
theorem interpret_of_error
    {first : Stmt}
    (stopped : executeTopLevel fuel echo first machine = .error interruption final)
    (executed : Nat) :
    interpret fuel echo (first :: rest) executed machine =
      (executed, some interruption, final) := by
  rw [interpret, stopped]

/-- All statements have been executed if nothing interrupts them. -/
theorem count_of_interpret
    (ended : interpret fuel echo program executed machine = (count, none, final)) :
    count = executed + program.length := by
  induction program generalizing executed machine with
  | nil =>
    cases ended
    rfl
  | cons first rest inductionHypothesis =>
    cases outcome : executeTopLevel fuel echo first machine with
    | error interruption after =>
      rw [interpret_of_error outcome] at ended
      cases ended
    | ok result after =>
      rw [interpret_of_ok outcome] at ended
      rw [inductionHypothesis ended, List.length_cons]
      omega

/-- An interruption is that of one statement. -/
theorem exists_of_interpret
    (ended : interpret fuel echo program executed machine = (count, some interruption, final)) :
    ∃ before statement rest middle, program = before ++ statement :: rest ∧
      count = executed + before.length ∧
      interpret fuel echo before executed machine = (count, none, middle) ∧
      executeTopLevel fuel echo statement middle = .error interruption final := by
  induction program generalizing executed machine with
  | nil => cases ended
  | cons first rest inductionHypothesis =>
    cases outcome : executeTopLevel fuel echo first machine with
    | error other after =>
      rw [interpret_of_error outcome] at ended
      cases ended
      exact ⟨[], first, rest, machine, rfl, rfl, rfl, outcome⟩
    | ok result after =>
      rw [interpret_of_ok outcome] at ended
      obtain ⟨before, statement, behind, middle, rfl, isCount, completed, stopped⟩ :=
        inductionHypothesis ended
      refine ⟨first :: before, statement, behind, middle, rfl, ?_, ?_, stopped⟩
      · rw [isCount, List.length_cons]
        omega
      · rw [interpret_of_ok outcome, completed]

/-- An interrupted program stops at the statement that its count leads to. -/
theorem stops_of_interpret
    (ended : interpret fuel echo program 0 machine = (count, some interruption, final)) :
    Stops fuel echo program machine count interruption final := by
  obtain ⟨before, statement, rest, middle, isProgram, isCount, completed, stopped⟩ :=
    exists_of_interpret ended
  exact .intro isProgram (by omega) completed stopped

/-- A settled interruption of a visited task interrupts the program. -/
theorem Visits.fails
    {task : Task}
    {left : Machine}
    (visits : Visits fuel echo program machine task final)
    (fails : task.Fails final interruption left)
    (settled : interruption.IsSettled)
    (executed : Nat) :
    ∃ count after, interpret fuel echo program executed machine =
      (count, some interruption, after) ∧ left.SameButPlace after := by
  induction visits generalizing executed with
  | first visits =>
    obtain ⟨after, comesOut, same⟩ := visits.fails fails settled
    exact ⟨executed, after, interpret_of_error (executeTopLevel_of_fails comesOut) executed, same⟩
  | later done visits inductionHypothesis =>
    rw [interpret_of_ok done]
    exact inductionHypothesis fails (executed + 1)

end Programs
end Session
end TreeWalk
