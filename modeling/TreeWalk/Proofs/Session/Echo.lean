import TreeWalk.Proofs.Session.FullOutput

/-!
# Runs with and without echo

With echo, the value of every expression at the top level is printed once it has been
evaluated.  Nothing ever looks at the output, so this only adds lines: each statement
of the program writes what it writes without echo, and behind it comes the line of
its value, if it is an expression that has been evaluated.  An expression inside of
another statement adds nothing.
-/

namespace TreeWalk

/-- What has been written since an earlier machine. -/
def Machine.writtenSince (before after : Machine) : ByteArray :=
  after.output.written.extract before.output.written.size after.output.written.size

/-- The bytes written between two machines are those kept, where nothing limits the
output. -/
theorem Machine.writtenSince_eq
    {before after : Machine}
    {bytes : ByteArray}
    (unlimited : before.output.capacity = none)
    (written : after.output = before.output.keep bytes) :
    before.writtenSince after = bytes := by
  rw [writtenSince, written, Output.written_keep_of_unlimited _ _ unlimited,
    ByteArray.extract_append_eq_right rfl ByteArray.size_append]

/-- On an output without a limit, an evaluation adds the same bytes and ends in the same
way. -/
theorem Pours.on_unlimited
    {α : Type}
    {evaluation : Eval α}
    {machine : Machine}
    {output : Output}
    (pours : Pours evaluation)
    (unlimited : machine.output.capacity = none)
    (noLimit : output.capacity = none) :
    (evaluation.left machine).output =
        machine.output.keep (machine.writtenSince (evaluation.left machine)) ∧
      evaluation (machine.writingTo output) =
        Eval.redirect (output.keep (machine.writtenSince (evaluation.left machine)))
          (evaluation machine) := by
  obtain ⟨bytes, poured⟩ := pours machine unlimited
  rw [Machine.writtenSince_eq unlimited poured.written]
  exact ⟨poured.written, poured.ample output (Output.hasRoom_of_unlimited noLimit _)⟩

namespace Session

/-- What one statement writes without echo, and the line that echo adds behind it. -/
structure Passage where
  own : ByteArray
  echoed : ByteArray

/-- The line that echo adds behind a statement: that of its value, if the statement is
an expression that can be evaluated. -/
def echoLine (fuel : Nat) (statement : Stmt) (machine : Machine) : ByteArray :=
  match statement with
  | .expression value =>
    match Eval.evaluate fuel value machine with
    | .ok result after => after.heap.line result
    | .error _ _ => .empty
  | _ => .empty

/-- The passages of a program, one for each statement that is executed without echo.
The last one is that of the statement that is interrupted, if there is one. -/
def passages (fuel : Nat) : List Stmt -> Machine -> List Passage
  | [], _ => []
  | first :: rest, machine =>
    match executeTopLevel fuel false first machine with
    | .ok _ after =>
      ⟨machine.writtenSince after, echoLine fuel first machine⟩ :: passages fuel rest after
    | .error _ after => [⟨machine.writtenSince after, .empty⟩]

/-- A part of each passage, one after the other. -/
def gathered (part : Passage -> ByteArray) : List Passage -> ByteArray
  | [] => .empty
  | first :: rest => part first ++ gathered part rest

/-- What passages come to without echo. -/
def quietBytes : List Passage -> ByteArray :=
  gathered Passage.own

/-- What passages come to with echo. -/
def echoedBytes : List Passage -> ByteArray :=
  gathered fun passage => passage.own ++ passage.echoed

section Statements

variable
  {fuel : Nat}
  {statement : Stmt}
  {machine after : Machine}
  {output : Output}

/-- Without echo, executing an expression at the top level is evaluating it. -/
theorem evaluate_of_executeTopLevel
    {value : Expr}
    (done : executeTopLevel fuel false (.expression value) machine = .ok () after) :
    ∃ result, Eval.evaluate fuel value machine = .ok result after := by
  rw [executeTopLevel_expression] at done
  cases outcome : Eval.evaluate fuel value machine with
  | error interruption middle =>
    rw [Eval.bind_of_error outcome] at done
    cases done
  | ok result middle =>
    rw [Eval.bind_of_ok outcome] at done
    cases done
    exact ⟨result, rfl⟩

/-- The line of an expression comes behind what evaluating it writes. -/
theorem executeTopLevel_echo_expression
    {value : Expr}
    {result : Value}
    (unlimited : machine.output.capacity = none)
    (noLimit : output.capacity = none)
    (evaluated : Eval.evaluate fuel value machine = .ok result after) :
    executeTopLevel fuel true (.expression value) (machine.writingTo output) =
      .ok () (after.writingTo
        (output.keep (machine.writtenSince after ++ after.heap.line result))) := by
  obtain ⟨-, redirected⟩ := (pours_evaluate fuel value).on_unlimited unlimited noLimit
  rw [Eval.left, evaluated, Eval.redirect] at redirected
  rw [executeTopLevel_expression, Eval.bind_of_ok redirected, ← Output.keep_keep]
  apply Eval.printLine_of_hasRoom
  apply Output.hasRoom_of_unlimited
  simp [noLimit]

/-- A statement that is executed without echo is executed with echo on another output
as well, and the line of its value comes behind what it writes. -/
theorem executeTopLevel_echo_of_ok
    (unlimited : machine.output.capacity = none)
    (noLimit : output.capacity = none)
    (done : executeTopLevel fuel false statement machine = .ok () after) :
    executeTopLevel fuel true statement (machine.writingTo output) =
      .ok () (after.writingTo
        (output.keep (machine.writtenSince after ++ echoLine fuel statement machine))) := by
  rcases expression_or_other statement with ⟨value, rfl⟩ | other
  · obtain ⟨result, evaluated⟩ := evaluate_of_executeTopLevel done
    rw [executeTopLevel_echo_expression unlimited noLimit evaluated, echoLine, evaluated]
  · have noLine : echoLine fuel statement machine = .empty := by
      cases statement with
      | expression value => exact absurd rfl (other value)
      | _ => rfl
    obtain ⟨-, redirected⟩ :=
      (pours_executeTopLevel fuel false statement).on_unlimited unlimited noLimit
    rw [Eval.left, done, Eval.redirect, executeTopLevel_other fuel false other] at redirected
    rw [noLine, ByteArray.append_empty, executeTopLevel_other fuel true other, redirected]

/-- A statement that is interrupted without echo is interrupted with echo in the same
way. -/
theorem executeTopLevel_echo_of_error
    {interruption : Interruption}
    (unlimited : machine.output.capacity = none)
    (noLimit : output.capacity = none)
    (stopped : executeTopLevel fuel false statement machine = .error interruption after) :
    executeTopLevel fuel true statement (machine.writingTo output) =
      .error interruption (after.writingTo (output.keep (machine.writtenSince after))) := by
  obtain ⟨-, redirected⟩ :=
    (pours_executeTopLevel fuel false statement).on_unlimited unlimited noLimit
  rw [Eval.left, stopped, Eval.redirect] at redirected
  rcases executeTopLevel_eq_error redirected with fails | ⟨_, _, _, noEcho, -⟩
  · exact executeTopLevel_of_fails fails
  · cases noEcho

/-- What a statement leaves written without echo. -/
theorem output_executeTopLevel
    (fuel : Nat)
    (statement : Stmt)
    (unlimited : machine.output.capacity = none) :
    ((executeTopLevel fuel false statement).left machine).output =
      machine.output.keep
        (machine.writtenSince ((executeTopLevel fuel false statement).left machine)) :=
  ((pours_executeTopLevel fuel false statement).on_unlimited unlimited unlimited).1

end Statements

/-- Interpreting a program with echo comes to the same as without, and writes every
passage with its line. -/
theorem interpret_echo
    (fuel : Nat)
    (program : List Stmt)
    {machine : Machine}
    {output : Output}
    (unlimited : machine.output.capacity = none)
    (noLimit : output.capacity = none)
    (executed : Nat) :
    (interpret fuel false program executed machine).2.2.output =
        machine.output.keep (quietBytes (passages fuel program machine)) ∧
      interpret fuel true program executed (machine.writingTo output) =
        ((interpret fuel false program executed machine).1,
          (interpret fuel false program executed machine).2.1,
          (interpret fuel false program executed machine).2.2.writingTo
            (output.keep (echoedBytes (passages fuel program machine)))) := by
  induction program generalizing machine output executed with
  | nil =>
    rw [passages, quietBytes, echoedBytes, gathered, gathered, Output.keep_empty, Output.keep_empty]
    exact ⟨rfl, rfl⟩
  | cons first rest inductionHypothesis =>
    have written := output_executeTopLevel fuel first unlimited
    cases outcome : executeTopLevel fuel false first machine with
    | error interruption after =>
      rw [Eval.left, outcome] at written
      have echoes := executeTopLevel_echo_of_error unlimited noLimit outcome
      rw [passages, outcome, interpret_of_error outcome, interpret_of_error echoes]
      simpa only [quietBytes, echoedBytes, gathered, ByteArray.append_empty, and_true] using written
    | ok result after =>
      rw [Eval.left, outcome] at written
      have echoes := executeTopLevel_echo_of_ok unlimited noLimit outcome
      have stillUnlimited : after.output.capacity = none := by
        rw [written, Output.capacity_keep, unlimited]
      have stillNoLimit : (output.keep (machine.writtenSince after ++
          echoLine fuel first machine)).capacity = none := by
        rw [Output.capacity_keep, noLimit]
      obtain ⟨restWritten, restEchoes⟩ :=
        inductionHypothesis stillUnlimited stillNoLimit (executed + 1)
      rw [passages, outcome, interpret_of_ok outcome, interpret_of_ok echoes, restEchoes,
        restWritten, Output.keep_keep, written, Output.keep_keep]
      exact ⟨rfl, rfl⟩

/-- A session that prints the values of expressions at the top level, or does not. -/
def withEcho (echo : Bool) (session : Session) : Session :=
  { session with echo := echo }

/-- Echo only adds lines.  Let an accepted source text be run without echo and with it,
on an output without a limit.  Both runs come to an end or neither does.  They have the
same result and leave the same session, but for the output and the echo itself.  What
is written without echo is the passages of the statements, and with echo the line of
its value comes directly behind the passage of each statement that is an expression
and has been evaluated. -/
theorem echo_only_adds_lines
    {session : Session}
    {source : String}
    (unlimited : session.machine.output.capacity = none)
    (accepts : session.staticErrors source = [])
    (fuel : Nat) :
    Option.Rel
      (fun quiet echoing => echoing.1 = quiet.1 ∧
        echoing.2 = (quiet.2.writingTo echoing.2.machine.output).withEcho true ∧
        quiet.2.machine.output.written = session.machine.output.written ++
          quietBytes (passages fuel (session.program source) (session.ready source)) ∧
        echoing.2.machine.output.written = session.machine.output.written ++
          echoedBytes (passages fuel (session.program source) (session.ready source)))
      ((session.withEcho false).run fuel source) ((session.withEcho true).run fuel source) := by
  have readyUnlimited : (session.ready source).output.capacity = none := unlimited
  obtain ⟨written, echoes⟩ := interpret_echo fuel (session.program source) readyUnlimited
    readyUnlimited 0
  have quiet : (session.withEcho false).interpreted fuel source =
      interpret fuel false (session.program source) 0 (session.ready source) := rfl
  have echoing : (session.withEcho true).interpreted fuel source = _ := echoes
  have acceptsBoth : ∀ echo, (session.withEcho echo).staticErrors source = [] := fun _ => accepts
  rw [run_eq_finished (acceptsBoth false), run_eq_finished (acceptsBoth true), finished, finished,
    echoing, quiet]
  cases RunResult.ofEnd (interpret fuel false (session.program source) 0 (session.ready source)).1
    (interpret fuel false (session.program source) 0 (session.ready source)).2.1 with
  | none => exact .none
  | some result =>
    refine .some ⟨rfl, rfl, ?_, ?_⟩
    · exact (congrArg Output.written written).trans
        (Output.written_keep_of_unlimited _ _ readyUnlimited)
    · exact Output.written_keep_of_unlimited _ _ readyUnlimited

/-- A text with expressions at the top level, in a function and in a block, which print
and are evaluated. -/
def chattyText : String :=
  "fn f() \x7b print \"in\"; \"unseen\"; return \"out\"; \x7d f(); \x7b f(); \x7d \"last\";"

/-- Calls at top level and in a block: only the first and the last expression are echoed.
-/
theorem echo_only_adds_lines_chatty :
    idle.machine.output.capacity = none ∧ idle.staticErrors chattyText = [] ∧
      ∃ result quiet echoing,
        (idle.withEcho false).run 20 chattyText = some (result, quiet) ∧
        (idle.withEcho true).run 20 chattyText = some (result, echoing) ∧
        echoing = (quiet.writingTo echoing.machine.output).withEcho true ∧
        quiet.machine.output.written.data = "in\nin\n".toUTF8.data ∧
        echoing.machine.output.written.data = "in\nout\nin\nlast\n".toUTF8.data := by
  have accepts : idle.staticErrors chattyText = [] := List.isEmpty_iff.mp (by decide +kernel)
  have prints : (((idle.withEcho false).run 20 chattyText).any
        (·.2.machine.output.written.data == "in\nin\n".toUTF8.data) &&
      ((idle.withEcho true).run 20 chattyText).any
        (·.2.machine.output.written.data == "in\nout\nin\nlast\n".toUTF8.data)) = true := by
    decide +kernel
  rw [Bool.and_eq_true] at prints
  obtain ⟨⟨result, quiet⟩, runs, isQuiet⟩ := (Option.any_eq_true _ _).mp prints.1
  obtain ⟨⟨sameResult, echoing⟩, runsToo, isEchoing⟩ := (Option.any_eq_true _ _).mp prints.2
  have adds := echo_only_adds_lines rfl accepts 20
  rw [runs, runsToo] at adds
  cases adds with
  | some related =>
    obtain ⟨rfl, same, -, -⟩ := related
    exact ⟨rfl, accepts, _, quiet, echoing, runs, runsToo, same, eq_of_beq isQuiet,
      eq_of_beq isEchoing⟩

end Session
end TreeWalk
