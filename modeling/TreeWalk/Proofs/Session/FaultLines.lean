import TreeWalk.Proofs.Evaluation.FaultLines
import TreeWalk.Proofs.Session.Interpreting

/-!
# The lines of failures that come out

Programs are interpreted, or executed as the body of a block, on a machine with
functions and methods of earlier programs and any native functions.  If the tokens of
all this code are on line one or later, then so is every failure that comes out, and
its line is that of the token which is responsible for it.  The code that is on the
heap in the end has lines again, so this goes on from run to run.
-/

namespace TreeWalk

/-- The tokens of a program, and of all functions and methods on a heap. -/
def Heap.CodeWith (heap : Heap) (program : List Stmt) (token : Token) : Prop :=
  token ∈ Stmt.listTokens program ∨ heap.HasToken token

/-- A way to execute a text visits some tasks, and some interruptions come out of it.
Failures have the line of a token of the text which is responsible for them.  The
error of a native function comes out with the line of the call expression that called
it, and whatever interrupts a task comes out unchanged if it has a line or needs
none. -/
structure ReportsLines
    (text : Token -> Prop)
    (visited : Task -> Machine -> Prop)
    (comesOut : Interruption -> Prop) : Prop where
  positive : ∀ line fault, comesOut (.failure line fault) -> 1 ≤ line
  token : ∀ line fault, comesOut (.failure line fault) -> ∃ token, text token ∧ token.line = line
  responsible : ∀ line fault, comesOut (.failure line fault) -> Responsible visited line fault
  native : ∀ fuel callee paren arguments machine message,
    visited (.evaluate (fuel + 1) (.call callee paren arguments)) machine ->
      NativeRaises fuel callee arguments machine message ->
        comesOut (.failure paren.line (.native message))
  settled : ∀ task machine interruption after, visited task machine ->
    task.Fails machine interruption after -> interruption.IsSettled -> comesOut interruption

/-- Lines are reported if the visited tasks are tasks of a text with lines. -/
theorem ReportsLines.of_writtenIn
    {text : Token -> Prop}
    {visited : Task -> Machine -> Prop}
    {comesOut : Interruption -> Prop}
    (lined : ∀ token, text token -> 1 ≤ token.line)
    (written : ∀ task machine, visited task machine -> task.WrittenIn text machine)
    (responsible : ∀ line fault, comesOut (.failure line fault) -> Responsible visited line fault)
    (settled : ∀ task machine interruption after, visited task machine ->
      task.Fails machine interruption after -> interruption.IsSettled -> comesOut interruption) :
    ReportsLines text visited comesOut := by
  have token : ∀ line fault, comesOut (.failure line fault) ->
      ∃ token, text token ∧ token.line = line := by
    intro line fault fails
    obtain ⟨task, machine, token, member, visits, isLine⟩ :=
      (responsible line fault fails).exists_token
    exact ⟨token, (written task machine visits).tokens token member, isLine⟩
  refine ⟨fun line fault fails => ?_, token, responsible, ?_, settled⟩
  · obtain ⟨found, isText, rfl⟩ := token line fault fails
    exact lined found isText
  · intro fuel callee paren arguments machine message visits raises
    have inText : text paren :=
      (written _ machine visits).tokens paren (by simp [Task.tokens, Expr.tokens])
    obtain ⟨after, fails⟩ := raises.fails paren
    exact settled _ machine _ after visits fails (Nat.ne_of_gt (lined paren inText))

namespace Session

section Text

variable
  {text : Token -> Prop}
  {fuel : Nat}
  {echo : Bool}
  {program : List Stmt}
  {machine final : Machine}

/-- The tokens of a top-level task are those of its statement. -/
theorem tokens_topLevelTask (fuel : Nat) (statement : Stmt) :
    (topLevelTask fuel statement).tokens = statement.tokens := by
  cases statement with
  | expression value => simp [topLevelTask, Task.tokens, Stmt.tokens]
  | _ => rfl

theorem isCall_topLevelTask (fuel : Nat) (statement : Stmt) :
    (topLevelTask fuel statement).isCall = false := by
  cases statement <;> rfl

/-- The statements of a program of a text are begun as tasks of the text. -/
theorem tokens_of_topLevelTask
    (isText : ∀ token ∈ Stmt.listTokens program, text token)
    (fuel : Nat)
    (step : Stmt)
    (member : step ∈ program) :
    ∀ token ∈ (topLevelTask fuel step).tokens, text token := by
  intro token isToken
  rw [tokens_topLevelTask] at isToken
  exact isText token (Stmt.mem_listTokens.mpr ⟨step, member, isToken⟩)

/-- Interpreting a program of a text leaves no other code on the heap. -/
theorem writtenIn_interpret
    (written : machine.heap.WrittenIn text)
    (isText : ∀ token ∈ Stmt.listTokens program, text token)
    (executed : Nat) :
    (interpret fuel echo program executed machine).2.2.heap.WrittenIn text :=
  ((writtenInvariant text).interpreted
    (fun step member _ => tokens_of_topLevelTask isText fuel step member) written executed).2.2.1

/-- Interpreting a program of a text visits tasks of the text only. -/
theorem Visits.writtenIn
    {task : Task}
    (visits : Visits fuel echo program machine task final)
    (written : machine.heap.WrittenIn text)
    (isText : ∀ token ∈ Stmt.listTokens program, text token) :
    task.WrittenIn text final :=
  have ⟨_, heap, tokens, _⟩ := (writtenInvariant text).visitedIn
    (fun step member _ => tokens_of_topLevelTask isText fuel step member) written visits
  ⟨heap, tokens⟩

/-- Failures of a program of a text with lines. -/
theorem responsible_of_interpret
    {executed count line : Nat}
    {fault : RuntimeFault}
    (ended : interpret fuel echo program executed machine =
      (count, some (.failure line fault), final))
    (written : machine.heap.WrittenIn fun token => 1 ≤ token.line)
    (lined : ∀ token ∈ Stmt.listTokens program, 1 ≤ token.line) :
    Responsible (Visits fuel echo program machine) line fault := by
  induction program generalizing executed machine with
  | nil => cases ended
  | cons first rest inductionHypothesis =>
    rw [Stmt.listTokens, List.forall_mem_append] at lined
    cases outcome : executeTopLevel fuel echo first machine with
    | ok result after =>
      rw [interpret_of_ok outcome] at ended
      have admitted : ∀ token ∈ (topLevelTask fuel first).tokens, 1 ≤ token.line := by
        rw [tokens_topLevelTask]
        exact lined.1
      have kept : (writtenInvariant fun token => 1 ≤ token.line).Judged
          (executeTopLevel fuel echo first) machine _ :=
        (writtenInvariant _).judged_executeTopLevel echo admitted
      obtain ⟨-, -, afterWritten, -⟩ := kept.ok written outcome
      exact (inductionHypothesis ended afterWritten lined.2).mono fun _ _ visits =>
        .later outcome visits
    | error interruption after =>
      rw [interpret_of_error outcome] at ended
      cases ended
      rcases executeTopLevel_eq_error outcome with fails | ⟨_, _, _, -, -, -, refused⟩
      · have responsible := fails.responsible (isCall_topLevelTask fuel first)
          ⟨written, by rw [tokens_topLevelTask]; exact lined.1⟩
        exact responsible.mono fun _ _ visits => .first visits
      · cases Eval.printLine_eq_error refused

end Text

section Parsed

variable {machine : Machine} (source : String) (firstId fuel : Nat)

/-- The lines of the program and of earlier code are counted from 1. -/
theorem lined_codeWith
    (lined : machine.heap.WrittenIn fun token => 1 ≤ token.line)
    (token : Token)
    (isCode : machine.heap.CodeWith (parseProgram source firstId).result token) :
    1 ≤ token.line :=
  isCode.elim (one_le_line_of_parseProgram source firstId token) (lined token)

/-- A program that is interpreted reports the lines of its own code and of what is on the
heap. -/
theorem reportsLines_interpret
    (lined : machine.heap.WrittenIn fun token => 1 ≤ token.line)
    (echo : Bool)
    (executed : Nat) :
    ReportsLines (machine.heap.CodeWith (parseProgram source firstId).result)
      (Visits fuel echo (parseProgram source firstId).result machine)
      fun interruption => ∃ count after,
        interpret fuel echo (parseProgram source firstId).result executed machine =
          (count, some interruption, after) := by
  refine .of_writtenIn (lined_codeWith source firstId lined) ?_ ?_ ?_
  · intro task final visits
    exact visits.writtenIn (fun token => .inr) fun token => .inl
  · rintro line fault ⟨count, after, ended⟩
    exact responsible_of_interpret ended lined (one_le_line_of_parseProgram source firstId)
  · intro task final interruption after visits fails settled
    obtain ⟨count, left, ended, -⟩ := visits.fails fails settled executed
    exact ⟨count, left, ended⟩

/-- A block that is executed reports the lines of its own code and of what is on the heap.
-/
theorem reportsLines_executeBlock
    (lined : machine.heap.WrittenIn fun token => 1 ≤ token.line)
    (scope : ScopeRef) :
    ReportsLines (machine.heap.CodeWith (parseProgram source firstId).result)
      ((Task.sequence fuel (parseProgram source firstId).result).Visits
        { machine with scope := scope })
      fun interruption => ∃ after,
        Eval.executeBlock fuel (parseProgram source firstId).result scope machine =
          .error interruption after := by
  refine .of_writtenIn (lined_codeWith source firstId lined) ?_ ?_ ?_
  · intro task final visits
    exact visits.writtenIn ⟨fun token => .inr, fun token => .inl⟩
  · rintro line fault ⟨after, ended⟩
    obtain ⟨left, fails⟩ := Eval.within_eq_error ended
    exact Task.Fails.responsible fails rfl ⟨lined, one_le_line_of_parseProgram source firstId⟩
  · intro task final interruption after visits fails settled
    obtain ⟨left, comesOut, -⟩ := visits.fails fails settled
    exact ⟨_, Eval.within_of_error comesOut⟩

end Parsed

/-- Failures carry the line of the token that is responsible for them.  Let a source
text be parsed, and its program be interpreted, or executed as the body of a block, on
any machine where the code on the heap has lines, with whatever native functions.  A
failure that comes out is on line one or later, and this is the line of a token of the
program or of the code on the heap: of a token at which a visited task failed itself
or, if a native function raised the failure, of the closing parenthesis of the call
expression that called the native function directly.  An interruption of a visited task
that has a line or needs none leaves every task around it unchanged.  The code that is
left on the heap has lines again. -/
theorem failures_carry_the_responsible_line
    (source : String)
    (firstId fuel : Nat)
    (machine : Machine)
    (lined : machine.heap.WrittenIn fun token => 1 ≤ token.line) :
    (∀ echo executed,
      ReportsLines (machine.heap.CodeWith (parseProgram source firstId).result)
        (Visits fuel echo (parseProgram source firstId).result machine)
        (fun interruption => ∃ count after,
          interpret fuel echo (parseProgram source firstId).result executed machine =
            (count, some interruption, after)) ∧
      (interpret fuel echo (parseProgram source firstId).result executed machine).2.2.heap.WrittenIn
        fun token => 1 ≤ token.line) ∧
    (∀ scope,
      ReportsLines (machine.heap.CodeWith (parseProgram source firstId).result)
        ((Task.sequence fuel (parseProgram source firstId).result).Visits
          { machine with scope := scope })
        (fun interruption => ∃ after,
          Eval.executeBlock fuel (parseProgram source firstId).result scope machine =
            .error interruption after) ∧
      ((Eval.executeBlock fuel (parseProgram source firstId).result scope).left
        machine).heap.WrittenIn fun token => 1 ≤ token.line) ∧
    ∀ (outer inner : Task) (start final left : Machine) (interruption : Interruption),
      outer.Visits start inner final -> inner.Fails final interruption left ->
        interruption.IsSettled -> ∃ after, outer.Fails start interruption after := by
  have linedProgram := one_le_line_of_parseProgram source firstId
  refine ⟨fun echo executed => ⟨reportsLines_interpret source firstId fuel lined echo executed,
    writtenIn_interpret lined linedProgram executed⟩,
    fun scope => ⟨reportsLines_executeBlock source firstId fuel lined scope, ?_⟩, ?_⟩
  · have kept : (writtenInvariant fun token => 1 ≤ token.line).Judged
        (Eval.executeBlock fuel (parseProgram source firstId).result scope) machine _ :=
      Regime.judged_within ((writtenInvariant _).judged_sequence linedProgram)
    exact (kept.left lined).2.2
  · intro outer inner start final left interruption visits fails settled
    obtain ⟨after, comesOut, -⟩ := visits.fails fails settled
    exact ⟨after, comesOut⟩

/-- A native function that always gives an error. -/
def refusal : Native :=
  ⟨"refuse", 0, .compute fun _ => .error "refused"⟩

/-- A machine with this native function among its globals. -/
def refusingMachine : Machine :=
  let machine := Machine.fresh { reading := fun _ => 0 } {}
  let (place, heap) := machine.heap.newNative refusal
  { machine with heap := heap.define machine.globals refusal.name (.native place) }

/-- A text that makes an instance, whose initializer calls a function, which calls the
native function.  The call ends on line three. -/
def refusedText : String :=
  "fn f() \x7b\n refuse(\n ); \x7d\nclass A \x7b init() \x7b f(); \x7d \x7d\nA();"

/-- A native function refuses on line 3, called by a function that an initializer calls.
-/
theorem failures_carry_the_responsible_line_refused :
    (refusingMachine.heap.WrittenIn fun token => 1 ≤ token.line) ∧
      ∃ after, interpret 30 false (parseProgram refusedText 0).result 0 refusingMachine =
          (2, some (.failure 3 (.native "refused")), after) ∧
        Responsible (Visits 30 false (parseProgram refusedText 0).result refusingMachine) 3
          (.native "refused") := by
  have lined : refusingMachine.heap.WrittenIn fun token => 1 ≤ token.line := by
    intro token isThere
    cases isThere with
    | function found => simp [refusingMachine, Machine.fresh, Heap.newNative, Heap.newScope,
        Heap.define, Heap.function?] at found
    | method found => simp [refusingMachine, Machine.fresh, Heap.newNative, Heap.newScope,
        Heap.define, Heap.class?] at found
  have refused :
      ((interpret 30 false (parseProgram refusedText 0).result 0 refusingMachine).1 == 2 &&
        (interpret 30 false (parseProgram refusedText 0).result 0 refusingMachine).2.1 ==
          some (.failure 3 (.native "refused"))) = true := by
    decide +kernel
  rw [Bool.and_eq_true, beq_iff_eq, beq_iff_eq] at refused
  have ended : interpret 30 false (parseProgram refusedText 0).result 0 refusingMachine =
      (2, some (.failure 3 (.native "refused")),
        (interpret 30 false (parseProgram refusedText 0).result 0 refusingMachine).2.2) :=
    Prod.ext refused.1 (Prod.ext refused.2 rfl)
  have reports := ((failures_carry_the_responsible_line refusedText 0 30 refusingMachine lined).1
    false 0).1
  exact ⟨lined, _, ended, reports.responsible 3 (.native "refused") ⟨2, _, ended⟩⟩

end Session
end TreeWalk
