import TreeWalk.Proofs.Evaluation.Restoration
import TreeWalk.Proofs.Evaluation.Visits

/-!
# Where interruptions come from

A task that is interrupted either fails itself, in the last step that is its own,
or has begun a task that is interrupted.  `Task.FailsItself` lists, rule by rule,
how tasks fail themselves.  So behind every interruption there is a task that the
evaluation has visited and that failed itself.  On its way out an interruption
passes the tasks around it unchanged, except that a call gives its line to a
failure which has none.
-/

namespace TreeWalk

/-- A task is interrupted and leaves a machine.  The last step of an assignment and
the reading of a superclass are interrupted as parts of the tasks around them. -/
def Task.Fails (machine : Machine) (interruption : Interruption) (after : Machine) : Task -> Prop
  | .evaluate fuel value => Eval.evaluate fuel value machine = .error interruption after
  | .each fuel values => Eval.each (Eval.evaluate fuel) values machine = .error interruption after
  | .store _ _ => False
  | .execute fuel step => Eval.execute fuel step machine = .error interruption after
  | .sequence fuel steps =>
    Eval.sequence (Eval.execute fuel) steps machine = .error interruption after
  | .repeatWhile fuel condition body =>
    Eval.repeatWhile fuel condition body machine = .error interruption after
  | .superclass _ _ => False
  | .invoke fuel callee paren arguments =>
    Eval.invoke (Eval.execute fuel) callee paren arguments machine = .error interruption after
  | .call fuel arguments callable =>
    Eval.call (Eval.execute fuel) arguments callable machine = .error interruption after
  | .callClosure fuel closure arguments =>
    Eval.callClosure (Eval.execute fuel) closure arguments machine = .error interruption after

/-- A task is interrupted in one way only. -/
theorem Task.Fails.unique
    {task : Task}
    {machine after otherAfter : Machine}
    {interruption other : Interruption}
    (fails : task.Fails machine interruption after)
    (failsToo : task.Fails machine other otherAfter) :
    interruption = other ∧ after = otherAfter := by
  cases task <;> simp only [Fails] at fails failsToo <;> simp_all

/-- What becomes of an interruption on its way out of a task: a call gives its line
to a failure that has none. -/
def Task.passOn (interruption : Interruption) : Task -> Interruption
  | .invoke _ _ paren _ => interruption.orLine paren.line
  | _ => interruption

/-- An interruption that no call changes, which is any but a failure without a
line. -/
def Interruption.IsSettled : Interruption -> Prop
  | .failure line _ => line ≠ 0
  | _ => True

/-- An interruption that has its line keeps it. -/
theorem Interruption.IsSettled.orLine_eq
    {interruption : Interruption}
    (settled : interruption.IsSettled)
    (line : Nat) :
    interruption.orLine line = interruption := by
  cases interruption with
  | failure own fault =>
    cases own with
    | zero => exact absurd rfl settled
    | succ own => rfl
  | outputFull => rfl
  | outOfFuel => rfl

/-- An interruption that has its line passes through every task as it is. -/
theorem Interruption.IsSettled.passOn_eq
    {interruption : Interruption}
    (settled : interruption.IsSettled)
    (task : Task) :
    task.passOn interruption = interruption := by
  cases task with
  | invoke fuel callee paren arguments => exact settled.orLine_eq paren.line
  | _ => rfl

/-- Two machines differ in nothing but the current scope and the number of calls in
progress. -/
def Machine.SameButPlace (one other : Machine) : Prop :=
  other = { one with scope := other.scope, callDepth := other.callDepth }

theorem Machine.SameButPlace.refl (machine : Machine) : machine.SameButPlace machine :=
  rfl

theorem Machine.SameButPlace.trans
    {one middle other : Machine}
    (first : one.SameButPlace middle)
    (second : middle.SameButPlace other) :
    one.SameButPlace other := by
  unfold SameButPlace at first second ⊢
  rw [second, first]

/-- An evaluation in another scope that is interrupted leaves the scope it was entered
from. -/
theorem Eval.within_of_error
    {α : Type}
    {body : Eval α}
    {scope : ScopeRef}
    {machine after : Machine}
    {interruption : Interruption}
    (ended : body { machine with scope := scope } = .error interruption after) :
    Eval.within scope body machine = .error interruption { after with scope := machine.scope } := by
  rw [Eval.within_eq_wrapped]
  exact Eval.wrapped_of_error ended

/-- A counted call that is interrupted gives its line to an interruption without one, and
uncounts itself. -/
theorem Eval.asCall_of_error
    {α : Type}
    {body : Eval α}
    {line : Nat}
    {machine after : Machine}
    {interruption : Interruption}
    (ended : body { machine with callDepth := machine.callDepth + 1 } =
      .error interruption after) :
    Eval.asCall line body machine =
      .error (interruption.orLine line) { after with callDepth := after.callDepth - 1 } := by
  rw [Eval.asCall_eq_wrapped]
  exact Eval.wrapped_of_error ended

/-- An interruption comes out of the task that has begun the interrupted one. -/
theorem Begins.fails
    {outer inner : Task}
    {middle final left : Machine}
    {interruption : Interruption}
    (begins : Begins outer middle inner final)
    (fails : inner.Fails final interruption left) :
    ∃ after, outer.Fails middle (outer.passOn interruption) after ∧ left.SameButPlace after := by
  -- Only blocks, calls and bodies put something back on the way out.
  have atOnce : ∀ {task : Task}, task.Fails middle (task.passOn interruption) left ->
      ∃ after, task.Fails middle (task.passOn interruption) after ∧ left.SameButPlace after :=
    fun fails => ⟨left, fails, .refl left⟩
  cases begins with
  | grouping | loop | callFunction => exact atOnce fails
  | unary | binaryLeft | logicalLeft | assigned | callee | object | changedObject | firstOfEach
  | expression | print | initializer | returned | firstOfSequence | loopCondition | setUp =>
    exact atOnce (Eval.bind_of_error fails _)
  | binaryRight first | arguments first | fieldValue first | restOfEach first =>
    exact atOnce ((Eval.bind_of_ok first _).trans (Eval.bind_of_error fails _))
  | logicalRight first undecided =>
    refine atOnce ((Eval.bind_of_ok first _).trans ?_)
    rw [undecided]
    exact fails
  | store | superclass => exact fails.elim
  | invoke first second =>
    exact atOnce ((Eval.bind_of_ok first _).trans ((Eval.bind_of_ok second _).trans fails))
  | block => exact ⟨_, Eval.within_of_error fails, rfl⟩
  | condition =>
    refine atOnce ?_
    rw [Task.Fails, Eval.execute_conditional]
    exact Eval.bind_of_error fails _
  | thenBranch tested holds =>
    refine atOnce ?_
    rw [Task.Fails, Eval.execute_conditional, Eval.bind_of_ok tested, if_pos holds]
    exact fails
  | elseBranch tested untrue =>
    refine atOnce ?_
    rw [Task.Fails, Eval.execute_conditional, Eval.bind_of_ok tested, if_neg (by simp [untrue])]
    exact fails
  | restOfSequence done => exact atOnce ((Eval.bind_of_ok done _).trans fails)
  | loopBody tested holds =>
    refine atOnce ((Eval.bind_of_ok tested _).trans ?_)
    rw [if_pos holds]
    exact Eval.bind_of_error fails _
  | loopAgain tested holds done =>
    refine atOnce ((Eval.bind_of_ok tested _).trans ?_)
    rw [if_pos holds]
    exact (Eval.bind_of_ok done _).trans fails
  | call found matching shallow =>
    refine ⟨{ left with callDepth := left.callDepth - 1 }, ?_, rfl⟩
    rw [Task.Fails, Eval.invoke_apply, found, Eval.invokeAt, if_neg (not_not_intro matching),
      if_neg (Nat.not_le_of_lt shallow)]
    exact Eval.asCall_of_error fails
  | @body _ closure arguments =>
    refine ⟨{ left with scope := middle.scope }, ?_, rfl⟩
    have entered : Eval.onHeap (·.newScope (some closure.scope)
        (Eval.bindParameters closure.declaration.parameters arguments)) middle = .ok _ _ := rfl
    rw [Task.Fails, Eval.callClosure_eq, Eval.bind_of_ok entered]
    have bodyFails : Eval.sequence _ closure.declaration.body _ = .error interruption left := fails
    exact Eval.bind_of_error (Eval.within_of_error bodyFails) _

/-- A settled interruption of a visited task comes out unchanged, however many tasks
there are around it. -/
theorem Task.Visits.fails
    {task inner : Task}
    {machine final left : Machine}
    {interruption : Interruption}
    (visits : task.Visits machine inner final)
    (fails : inner.Fails final interruption left)
    (settled : interruption.IsSettled) :
    ∃ after, task.Fails machine interruption after ∧ left.SameButPlace after := by
  induction visits generalizing left with
  | start => exact ⟨left, fails, .refl left⟩
  | further _ begins inductionHypothesis =>
    obtain ⟨between, outerFails, same⟩ := begins.fails fails
    rw [settled.passOn_eq] at outerFails
    obtain ⟨after, taskFails, further⟩ := inductionHypothesis outerFails
    exact ⟨after, taskFails, same.trans further⟩

/-- A failure of a visited task comes out as a failure. -/
theorem Task.Visits.failure
    {task inner : Task}
    {machine final left : Machine}
    {line : Nat}
    {fault : RuntimeFault}
    (visits : task.Visits machine inner final)
    (fails : inner.Fails final (.failure line fault) left) :
    ∃ outerLine after, task.Fails machine (.failure outerLine fault) after := by
  induction visits generalizing line left with
  | start => exact ⟨line, left, fails⟩
  | @further outer _ _ _ _ begins inductionHypothesis =>
    obtain ⟨between, outerFails, -⟩ := begins.fails fails
    have passed : ∃ outerLine, outer.passOn (.failure line fault) = .failure outerLine fault := by
      cases outer with
      | invoke fuel callee paren arguments => cases line <;> exact ⟨_, rfl⟩
      | _ => exact ⟨_, rfl⟩
    obtain ⟨outerLine, isPassed⟩ := passed
    rw [isPassed] at outerFails
    exact inductionHypothesis outerFails

/-! ## Tasks that fail themselves -/

/-- A task has no fuel to begin with. -/
def Task.isSpent : Task -> Bool
  | .evaluate 0 _ => true
  | .execute 0 _ => true
  | .repeatWhile 0 _ _ => true
  | _ => false

/-- A task fails in a step of its own, after the tasks that it has begun have come to
results. -/
inductive Task.FailsItself : Task -> Machine -> Interruption -> Machine -> Prop
  | outOfFuel {task machine} (spent : task.isSpent = true) :
      FailsItself task machine .outOfFuel machine
  | unary {fuel operator right machine value middle interruption after}
      (evaluated : Eval.evaluate fuel right machine = .ok value middle)
      (failed : Eval.applyUnary operator value middle = .error interruption after) :
      FailsItself (.evaluate (fuel + 1) (.unary operator right)) machine interruption after
  | binary {fuel left operator right machine value between other middle interruption after}
      (evaluated : Eval.evaluate fuel left machine = .ok value between)
      (evaluatedToo : Eval.evaluate fuel right between = .ok other middle)
      (failed : Eval.applyBinary operator value other middle = .error interruption after) :
      FailsItself (.evaluate (fuel + 1) (.binary left operator right)) machine interruption after
  | read {fuel target machine interruption after}
      (failed : Eval.readVariable target machine = .error interruption after) :
      FailsItself (.evaluate (fuel + 1) (.read target)) machine interruption after
  | assign {fuel target value machine result middle interruption after}
      (evaluated : Eval.evaluate fuel value machine = .ok result middle)
      (failed : Eval.assignVariable target result middle = .error interruption after) :
      FailsItself (.evaluate (fuel + 1) (.assign target value)) machine interruption after
  | noProperties {fuel object name machine value after}
      (evaluated : Eval.evaluate fuel object machine = .ok value after)
      (noInstance : ∀ receiver, value ≠ .object receiver) :
      FailsItself (.evaluate (fuel + 1) (.property object name)) machine
        (.failure name.line .noProperties) after
  | property {fuel object name machine receiver middle interruption after}
      (evaluated : Eval.evaluate fuel object machine = .ok (.object receiver) middle)
      (failed : Eval.readProperty receiver name middle = .error interruption after) :
      FailsItself (.evaluate (fuel + 1) (.property object name)) machine interruption after
  | noFields {fuel object name value machine result after}
      (evaluated : Eval.evaluate fuel object machine = .ok result after)
      (noInstance : ∀ receiver, result ≠ .object receiver) :
      FailsItself (.evaluate (fuel + 1) (.setProperty object name value)) machine
        (.failure name.line .noFields) after
  | self {fuel keyword machine interruption after}
      (failed : Eval.readVariable keyword machine = .error interruption after) :
      FailsItself (.evaluate (fuel + 1) (.self keyword)) machine interruption after
  | inherited {fuel keyword method machine interruption after}
      (failed : Eval.readInherited keyword method machine = .error interruption after) :
      FailsItself (.evaluate (fuel + 1) (.inherited keyword method)) machine interruption after
  | print {fuel value machine result middle interruption after}
      (evaluated : Eval.evaluate fuel value machine = .ok result middle)
      (failed : Eval.printLine result middle = .error interruption after) :
      FailsItself (.execute (fuel + 1) (.print value)) machine interruption after
  | classDecl {fuel name superclass functions machine interruption after}
      (failed : Eval.declareClass name superclass functions machine = .error interruption after) :
      FailsItself (.execute (fuel + 1) (.classDecl name superclass functions)) machine interruption
        after
  | notCallable {fuel callee paren arguments} {machine : Machine}
      (unknown : machine.heap.callable? callee = none) :
      FailsItself (.invoke fuel callee paren arguments) machine
        (.failure paren.line .notCallable) machine
  | wrongArity {fuel callee paren arguments callable} {machine : Machine}
      (found : machine.heap.callable? callee = some callable)
      (mismatch : arguments.length ≠ callable.arity) :
      FailsItself (.invoke fuel callee paren arguments) machine
        (.failure paren.line (.wrongArity callable.arity arguments.length)) machine
  | stackOverflow {fuel callee paren arguments callable} {machine : Machine}
      (found : machine.heap.callable? callee = some callable)
      (deep : maxCallDepth ≤ machine.callDepth) :
      FailsItself (.invoke fuel callee paren arguments) machine
        (.failure paren.line .stackOverflow) machine
  | native {fuel arguments function machine interruption after}
      (failed : Eval.callNative function arguments machine = .error interruption after) :
      FailsItself (.call fuel arguments (.native function)) machine interruption after

/-- An interrupted evaluation in another scope was interrupted inside. -/
theorem Eval.within_eq_error
    {α : Type}
    {body : Eval α}
    {scope : ScopeRef}
    {machine after : Machine}
    {interruption : Interruption}
    (ended : Eval.within scope body machine = .error interruption after) :
    ∃ left, body { machine with scope := scope } = .error interruption left := by
  rw [Eval.within_eq_wrapped] at ended
  obtain ⟨_, left, failed, rfl, -⟩ := Eval.wrapped_eq_error ended
  exact ⟨left, failed⟩

/-- An interrupted call was interrupted inside. -/
theorem Eval.asCall_eq_error
    {α : Type}
    {body : Eval α}
    {line : Nat}
    {machine after : Machine}
    {interruption : Interruption}
    (ended : Eval.asCall line body machine = .error interruption after) :
    ∃ other left, body { machine with callDepth := machine.callDepth + 1 } = .error other left := by
  rw [Eval.asCall_eq_wrapped] at ended
  obtain ⟨other, left, failed, -⟩ := Eval.wrapped_eq_error ended
  exact ⟨other, left, failed⟩

/-- A task fails itself, or has begun a task that is interrupted. -/
def Task.FailsInside (task : Task) (machine : Machine) (interruption : Interruption)
    (after : Machine) : Prop :=
  task.FailsItself machine interruption after ∨
    ∃ inner final other left, Begins task machine inner final ∧ inner.Fails final other left

section Inside

variable
  {fuel : Nat}
  {machine after : Machine}
  {interruption : Interruption}

/-- A task fails inside as soon as one of the tasks it begins fails. -/
theorem Task.FailsInside.begun
    {task inner : Task}
    {final left : Machine}
    {other : Interruption}
    (begins : Begins task machine inner final)
    (fails : inner.Fails final other left) :
    task.FailsInside machine interruption after :=
  .inr ⟨inner, final, other, left, begins, fails⟩

/-- The interruption of an evaluated expression is its own or that of a task it began. -/
theorem evaluate_failsInside
    {value : Expr}
    (fails : Eval.evaluate (fuel + 1) value machine = .error interruption after) :
    (Task.evaluate (fuel + 1) value).FailsInside machine interruption after := by
  cases value with
  | literal value => cases fails
  | grouping inner => exact .begun .grouping fails
  | unary operator right =>
    rcases Eval.bind_eq_error fails with fails | ⟨value, middle, evaluated, failed⟩
    · exact .begun .unary fails
    · exact .inl (.unary evaluated failed)
  | binary left operator right =>
    rcases Eval.bind_eq_error fails with fails | ⟨value, between, evaluated, fails⟩
    · exact .begun .binaryLeft fails
    rcases Eval.bind_eq_error fails with fails | ⟨other, middle, evaluatedToo, failed⟩
    · exact .begun (.binaryRight evaluated) fails
    · exact .inl (.binary evaluated evaluatedToo failed)
  | logical left operator right =>
    rcases Eval.bind_eq_error fails with fails | ⟨value, middle, evaluated, fails⟩
    · exact .begun .logicalLeft fails
    cases decided : Eval.decidedBy operator value with
    | true =>
      rw [if_pos decided] at fails
      cases fails
    | false =>
      rw [if_neg (by simp [decided])] at fails
      exact .begun (.logicalRight evaluated decided) fails
  | read target => exact .inl (.read fails)
  | assign target value =>
    rcases Eval.bind_eq_error fails with fails | ⟨result, middle, evaluated, fails⟩
    · exact .begun .assigned fails
    rcases Eval.bind_eq_error fails with failed | ⟨_, _, _, returned⟩
    · exact .inl (.assign evaluated failed)
    · cases returned
  | call callee paren arguments =>
    rcases Eval.bind_eq_error fails with fails | ⟨function, middle, evaluated, fails⟩
    · exact .begun .callee fails
    rcases Eval.bind_eq_error fails with fails | ⟨values, final, argued, fails⟩
    · exact .begun (.arguments evaluated) fails
    · exact .begun (.invoke evaluated argued) fails
  | property object name =>
    rcases Eval.bind_eq_error fails with fails | ⟨value, middle, evaluated, fails⟩
    · exact .begun .object fails
    cases value with
    | object receiver => exact .inl (.property evaluated fails)
    | _ =>
      cases fails
      exact .inl (.noProperties evaluated nofun)
  | setProperty object name value =>
    rcases Eval.bind_eq_error fails with fails | ⟨result, middle, evaluated, fails⟩
    · exact .begun .changedObject fails
    cases result with
    | object receiver =>
      rcases Eval.bind_eq_error fails with fails | ⟨_, _, _, stored⟩
      · exact .begun (.fieldValue evaluated) fails
      · cases stored
    | _ =>
      cases fails
      exact .inl (.noFields evaluated nofun)
  | self keyword => exact .inl (.self fails)
  | inherited keyword method => exact .inl (.inherited fails)

/-- The interruption of an executed statement is its own or that of a task it began. -/
theorem execute_failsInside
    {step : Stmt}
    (fails : Eval.execute (fuel + 1) step machine = .error interruption after) :
    (Task.execute (fuel + 1) step).FailsInside machine interruption after := by
  cases step with
  | expression value =>
    rcases Eval.bind_eq_error fails with fails | ⟨_, _, _, done⟩
    · exact .begun .expression fails
    · cases done
  | print value =>
    rcases Eval.bind_eq_error fails with fails | ⟨result, middle, evaluated, fails⟩
    · exact .begun .print fails
    rcases Eval.bind_eq_error fails with failed | ⟨_, _, _, done⟩
    · exact .inl (.print evaluated failed)
    · cases done
  | declare name initializer =>
    rcases Eval.bind_eq_error fails with fails | ⟨_, _, _, defined⟩
    · cases initializer with
      | none => cases fails
      | some value => exact .begun .initializer fails
    · cases defined
  | block body =>
    obtain ⟨left, fails⟩ := Eval.within_eq_error fails
    exact .begun .block fails
  | conditional condition thenBranch elseBranch =>
    rw [Eval.execute_conditional] at fails
    rcases Eval.bind_eq_error fails with fails | ⟨tested, middle, evaluated, fails⟩
    · exact .begun .condition fails
    cases holds : tested.isTruthy with
    | true =>
      rw [if_pos holds] at fails
      exact .begun (.thenBranch evaluated holds) fails
    | false =>
      rw [if_neg (by simp [holds])] at fails
      cases elseBranch with
      | none => cases fails
      | some branch => exact .begun (.elseBranch evaluated holds) fails
  | loop condition body => exact .begun .loop fails
  | function declaration => cases fails
  | returns keyword value =>
    rcases Eval.bind_eq_error fails with fails | ⟨_, _, _, done⟩
    · cases value with
      | none => cases fails
      | some value => exact .begun .returned fails
    · cases done
  | classDecl name superclass functions =>
    rcases Eval.bind_eq_error fails with failed | ⟨_, _, _, done⟩
    · exact .inl (.classDecl failed)
    · cases done

/-- The interruption of a loop is that of its condition, its body or a later round. -/
theorem repeatWhile_failsInside
    {condition : Expr}
    {body : Stmt}
    (fails : Eval.repeatWhile (fuel + 1) condition body machine = .error interruption after) :
    (Task.repeatWhile (fuel + 1) condition body).FailsInside machine interruption after := by
  rcases Eval.bind_eq_error fails with fails | ⟨tested, middle, evaluated, fails⟩
  · exact .begun .loopCondition fails
  cases holds : tested.isTruthy with
  | false =>
    rw [if_neg (by simp [holds])] at fails
    cases fails
  | true =>
    rw [if_pos holds] at fails
    rcases Eval.bind_eq_error fails with fails | ⟨flow, final, executed, fails⟩
    · exact .begun (.loopBody evaluated holds) fails
    cases flow with
    | normal => exact .begun (.loopAgain evaluated holds executed) fails
    | returned value => cases fails

/-- The interruption of an invocation is a wrong callee, a wrong arity, an exhausted
depth, or that of the call. -/
theorem invoke_failsInside
    {callee : Value}
    {paren : Token}
    {arguments : List Value}
    (fails : Eval.invoke (Eval.execute fuel) callee paren arguments machine =
      .error interruption after) :
    (Task.invoke fuel callee paren arguments).FailsInside machine interruption after := by
  rw [Eval.invoke_apply] at fails
  cases found : machine.heap.callable? callee with
  | none =>
    rw [found] at fails
    cases fails
    exact .inl (.notCallable found)
  | some callable =>
    rw [found, Eval.invokeAt] at fails
    by_cases matching : arguments.length = callable.arity
    · rw [if_neg (not_not_intro matching)] at fails
      by_cases deep : maxCallDepth ≤ machine.callDepth
      · rw [if_pos deep] at fails
        cases fails
        exact .inl (.stackOverflow found deep)
      · rw [if_neg deep] at fails
        obtain ⟨other, left, callFails⟩ := Eval.asCall_eq_error fails
        exact .begun (.call found matching (Nat.lt_of_not_le deep)) callFails
    · rw [if_pos matching] at fails
      cases fails
      exact .inl (.wrongArity found matching)

/-- The interruption of a closure's call is that of its body. -/
theorem callClosure_failsInside
    {closure : Closure}
    {arguments : List Value}
    (fails : Eval.callClosure (Eval.execute fuel) closure arguments machine =
      .error interruption after) :
    (Task.callClosure fuel closure arguments).FailsInside machine interruption after := by
  rw [Eval.callClosure_eq] at fails
  rcases Eval.bind_eq_error fails with entering | ⟨scope, entered, isEntered, fails⟩
  · cases entering
  cases isEntered
  rcases Eval.bind_eq_error fails with fails | ⟨flow, final, _, finishing⟩
  · obtain ⟨left, bodyFails⟩ := Eval.within_eq_error fails
    exact .begun .body bodyFails
  · -- What comes after the body only looks up a value.
    split at finishing
    · cases finishing
    · cases flow <;> cases finishing

/-- The interruption of a call is a native function's or that of a closure's call. -/
theorem call_failsInside
    {callable : Callable}
    {arguments : List Value}
    (fails : Eval.call (Eval.execute fuel) arguments callable machine =
      .error interruption after) :
    (Task.call fuel arguments callable).FailsInside machine interruption after := by
  cases callable with
  | native function => exact .inl (.native fails)
  | closure function => exact .begun .callFunction fails
  | ofClass place initializer =>
    rw [Eval.call, Eval.instantiate_eq] at fails
    rcases Eval.bind_eq_error fails with making | ⟨receiver, made, isMade, fails⟩
    · cases making
    cases isMade
    cases initializer with
    | none => cases fails
    | some method =>
      rcases Eval.bind_eq_error fails with binding | ⟨closure, bound, isBound, fails⟩
      · cases binding
      cases isBound
      rcases Eval.bind_eq_error fails with fails | ⟨_, _, _, done⟩
      · exact .begun .setUp fails
      · cases done

/-- An interrupted task fails itself, or has begun a task that is interrupted. -/
theorem Task.Fails.inside
    {task : Task}
    (fails : task.Fails machine interruption after) :
    task.FailsInside machine interruption after := by
  cases task with
  | evaluate fuel value =>
    cases fuel with
    | zero => cases value <;> cases fails <;> exact .inl (.outOfFuel rfl)
    | succ fuel => exact evaluate_failsInside fails
  | each fuel values =>
    cases values with
    | nil => cases fails
    | cons first rest =>
      rcases Eval.bind_eq_error fails with fails | ⟨value, middle, evaluated, fails⟩
      · exact .begun .firstOfEach fails
      rcases Eval.bind_eq_error fails with fails | ⟨_, _, _, done⟩
      · exact .begun (.restOfEach evaluated) fails
      · cases done
  | store target value => exact fails.elim
  | execute fuel step =>
    cases fuel with
    | zero => cases step <;> cases fails <;> exact .inl (.outOfFuel rfl)
    | succ fuel => exact execute_failsInside fails
  | sequence fuel steps =>
    cases steps with
    | nil => cases fails
    | cons first rest =>
      rcases Eval.bind_eq_error fails with fails | ⟨flow, middle, executed, fails⟩
      · exact .begun .firstOfSequence fails
      cases flow with
      | normal => exact .begun (.restOfSequence executed) fails
      | returned value => cases fails
  | repeatWhile fuel condition body =>
    cases fuel with
    | zero =>
      cases fails
      exact .inl (.outOfFuel rfl)
    | succ fuel => exact repeatWhile_failsInside fails
  | superclass name reference => exact fails.elim
  | invoke fuel callee paren arguments => exact invoke_failsInside fails
  | call fuel arguments callable => exact call_failsInside fails
  | callClosure fuel closure arguments => exact callClosure_failsInside fails

end Inside

/-- Whatever a task visits, the task that began it visits too. -/
theorem Task.Visits.behind
    {outer inner task : Task}
    {machine middle final : Machine}
    (begins : Begins outer machine inner middle)
    (visits : inner.Visits middle task final) :
    outer.Visits machine task final := by
  induction visits with
  | start => exact .further .start begins
  | further _ next inductionHypothesis => exact .further inductionHypothesis next

/-- Behind every interruption there is a visited task that failed itself. -/
theorem Task.Fails.exists_failsItself
    {task : Task}
    {machine after : Machine}
    {interruption : Interruption}
    (fails : task.Fails machine interruption after) :
    ∃ inner final other left, task.Visits machine inner final ∧
      inner.Fails final other left ∧ inner.FailsItself final other left := by
  rcases fails.inside with itself | ⟨begun, middle, other, left, begins, begunFails⟩
  · exact ⟨task, machine, interruption, after, .start, fails, itself⟩
  · obtain ⟨inner, final, other, left, visits, innerFails, itself⟩ := begunFails.exists_failsItself
    exact ⟨inner, final, other, left, visits.behind begins, innerFails, itself⟩
termination_by task.weight
decreasing_by exact begins.weight_lt

end TreeWalk
