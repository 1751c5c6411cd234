import TreeWalk.Session

/-!
# The steps of a run

Evaluating an expression begins the evaluation of its parts, executing a statement
that of its own parts, and a call the execution of a function body.  A task is
one such step.  `Begins` lists, rule by rule, the tasks that a task begins, each
with the machine on which it does; the tasks that a run visits are those which
it begins directly or through others.

Before a task begins another one, it carries out tasks that it began earlier, or
it sets up the scope or the call in which the other task is carried out, never
both.  So what holds where a task begins is proved by induction on the tasks that
were carried out before, and not rule by rule.
-/

namespace TreeWalk

/-- A step of evaluation.  The last step of an assignment and the reading of a
superclass are tasks of their own. -/
inductive Task where
  | evaluate (fuel : Nat) (value : Expr)
  | each (fuel : Nat) (values : List Expr)
  | store (target : Reference) (value : Expr)
  | execute (fuel : Nat) (step : Stmt)
  | sequence (fuel : Nat) (steps : List Stmt)
  | repeatWhile (fuel : Nat) (condition : Expr) (body : Stmt)
  | superclass (name : Token) (reference : Reference)
  | invoke (fuel : Nat) (callee : Value) (paren : Token) (arguments : List Value)
  | call (fuel : Nat) (arguments : List Value) (callable : Callable)
  | callClosure (fuel : Nat) (closure : Closure) (arguments : List Value)

/-- One task begins another one, on a machine that its evaluation has got to. -/
inductive Begins : Task -> Machine -> Task -> Machine -> Prop
  | grouping {fuel inner machine} :
      Begins (.evaluate (fuel + 1) (.grouping inner)) machine (.evaluate fuel inner) machine
  | unary {fuel operator right machine} :
      Begins (.evaluate (fuel + 1) (.unary operator right)) machine (.evaluate fuel right) machine
  | binaryLeft {fuel left operator right machine} :
      Begins (.evaluate (fuel + 1) (.binary left operator right)) machine
        (.evaluate fuel left) machine
  | binaryRight {fuel left operator right machine result after}
      (first : Eval.evaluate fuel left machine = .ok result after) :
      Begins (.evaluate (fuel + 1) (.binary left operator right)) machine
        (.evaluate fuel right) after
  | logicalLeft {fuel left operator right machine} :
      Begins (.evaluate (fuel + 1) (.logical left operator right)) machine
        (.evaluate fuel left) machine
  | logicalRight {fuel left operator right machine result after}
      (first : Eval.evaluate fuel left machine = .ok result after)
      (undecided : Eval.decidedBy operator result = false) :
      Begins (.evaluate (fuel + 1) (.logical left operator right)) machine
        (.evaluate fuel right) after
  | assigned {fuel target value machine} :
      Begins (.evaluate (fuel + 1) (.assign target value)) machine (.evaluate fuel value) machine
  | store {fuel target value machine result after}
      (first : Eval.evaluate fuel value machine = .ok result after) :
      Begins (.evaluate (fuel + 1) (.assign target value)) machine (.store target value) after
  | callee {fuel callee paren arguments machine} :
      Begins (.evaluate (fuel + 1) (.call callee paren arguments)) machine
        (.evaluate fuel callee) machine
  | arguments {fuel callee paren arguments machine function after}
      (first : Eval.evaluate fuel callee machine = .ok function after) :
      Begins (.evaluate (fuel + 1) (.call callee paren arguments)) machine
        (.each fuel arguments) after
  | invoke {fuel callee paren arguments machine function middle values after}
      (first : Eval.evaluate fuel callee machine = .ok function middle)
      (second : Eval.each (Eval.evaluate fuel) arguments middle = .ok values after) :
      Begins (.evaluate (fuel + 1) (.call callee paren arguments)) machine
        (.invoke fuel function paren values) after
  | object {fuel object name machine} :
      Begins (.evaluate (fuel + 1) (.property object name)) machine (.evaluate fuel object) machine
  | changedObject {fuel object name value machine} :
      Begins (.evaluate (fuel + 1) (.setProperty object name value)) machine
        (.evaluate fuel object) machine
  | fieldValue {fuel object name value machine receiver after}
      (first : Eval.evaluate fuel object machine = .ok (.object receiver) after) :
      Begins (.evaluate (fuel + 1) (.setProperty object name value)) machine
        (.evaluate fuel value) after
  | firstOfEach {fuel first rest machine} :
      Begins (.each fuel (first :: rest)) machine (.evaluate fuel first) machine
  | restOfEach {fuel first rest machine result after}
      (done : Eval.evaluate fuel first machine = .ok result after) :
      Begins (.each fuel (first :: rest)) machine (.each fuel rest) after
  | expression {fuel value machine} :
      Begins (.execute (fuel + 1) (.expression value)) machine (.evaluate fuel value) machine
  | print {fuel value machine} :
      Begins (.execute (fuel + 1) (.print value)) machine (.evaluate fuel value) machine
  | initializer {fuel name value machine} :
      Begins (.execute (fuel + 1) (.declare name (some value))) machine
        (.evaluate fuel value) machine
  | block {fuel body machine} :
      Begins (.execute (fuel + 1) (.block body)) machine (.sequence fuel body)
        { machine with
          heap := (machine.heap.newScope (some machine.scope) .empty).2
          scope := (machine.heap.newScope (some machine.scope) .empty).1 }
  | condition {fuel condition thenBranch elseBranch machine} :
      Begins (.execute (fuel + 1) (.conditional condition thenBranch elseBranch)) machine
        (.evaluate fuel condition) machine
  | thenBranch {fuel condition thenBranch elseBranch machine result after}
      (tested : Eval.evaluate fuel condition machine = .ok result after)
      (holds : result.isTruthy = true) :
      Begins (.execute (fuel + 1) (.conditional condition thenBranch elseBranch)) machine
        (.execute fuel thenBranch) after
  | elseBranch {fuel condition thenBranch branch machine result after}
      (tested : Eval.evaluate fuel condition machine = .ok result after)
      (fails : result.isTruthy = false) :
      Begins (.execute (fuel + 1) (.conditional condition thenBranch (some branch))) machine
        (.execute fuel branch) after
  | loop {fuel condition body machine} :
      Begins (.execute (fuel + 1) (.loop condition body)) machine
        (.repeatWhile fuel condition body) machine
  | returned {fuel keyword value machine} :
      Begins (.execute (fuel + 1) (.returns keyword (some value))) machine
        (.evaluate fuel value) machine
  | superclass {fuel name reference functions machine} :
      Begins (.execute (fuel + 1) (.classDecl name (some reference) functions)) machine
        (.superclass name reference) machine
  | firstOfSequence {fuel first rest machine} :
      Begins (.sequence fuel (first :: rest)) machine (.execute fuel first) machine
  | restOfSequence {fuel first rest machine after}
      (done : Eval.execute fuel first machine = .ok .normal after) :
      Begins (.sequence fuel (first :: rest)) machine (.sequence fuel rest) after
  | loopCondition {fuel condition body machine} :
      Begins (.repeatWhile (fuel + 1) condition body) machine (.evaluate fuel condition) machine
  | loopBody {fuel condition body machine result after}
      (tested : Eval.evaluate fuel condition machine = .ok result after)
      (holds : result.isTruthy = true) :
      Begins (.repeatWhile (fuel + 1) condition body) machine (.execute fuel body) after
  | loopAgain {fuel condition body machine result middle after}
      (tested : Eval.evaluate fuel condition machine = .ok result middle)
      (holds : result.isTruthy = true)
      (done : Eval.execute fuel body middle = .ok .normal after) :
      Begins (.repeatWhile (fuel + 1) condition body) machine
        (.repeatWhile fuel condition body) after
  | call {fuel callee paren arguments callable} {machine : Machine}
      (found : machine.heap.callable? callee = some callable)
      (matching : arguments.length = callable.arity)
      (shallow : machine.callDepth < maxCallDepth) :
      Begins (.invoke fuel callee paren arguments) machine (.call fuel arguments callable)
        { machine with callDepth := machine.callDepth + 1 }
  | callFunction {fuel arguments closure machine} :
      Begins (.call fuel arguments (.closure closure)) machine
        (.callClosure fuel closure arguments) machine
  | setUp {fuel arguments place method} {machine : Machine} :
      Begins (.call fuel arguments (.ofClass place (some method))) machine
        (.callClosure fuel ((machine.heap.newInstance place).2.bindMethod method
          (machine.heap.newInstance place).1).1 arguments)
        { machine with
          heap := ((machine.heap.newInstance place).2.bindMethod method
            (machine.heap.newInstance place).1).2 }
  | body {fuel closure arguments} {machine : Machine} :
      Begins (.callClosure fuel closure arguments) machine
        (.sequence fuel closure.declaration.body)
        { machine with
          heap := (machine.heap.newScope (some closure.scope)
            (Eval.bindParameters closure.declaration.parameters arguments)).2
          scope := (machine.heap.newScope (some closure.scope)
            (Eval.bindParameters closure.declaration.parameters arguments)).1 }

/-- How much of a task there may be left to do: its fuel, then how many tasks with as
much fuel it may be beginning in turn, then how many parts it has. -/
def Task.weight : Task -> Nat × Nat × Nat
  | .evaluate fuel _ => (fuel, 0, 0)
  | .each fuel values => (fuel, 1, values.length)
  | .store _ _ => (0, 0, 0)
  | .execute fuel _ => (fuel, 0, 0)
  | .sequence fuel steps => (fuel, 1, steps.length)
  | .repeatWhile fuel _ _ => (fuel, 0, 0)
  | .superclass _ _ => (0, 0, 0)
  | .invoke fuel _ _ _ => (fuel, 4, 0)
  | .call fuel _ _ => (fuel, 3, 0)
  | .callClosure fuel _ _ => (fuel, 2, 0)

/-- A task begins tasks that have less to do. -/
theorem Begins.weight_lt
    {outer inner : Task}
    {middle final : Machine}
    (begins : Begins outer middle inner final) :
    Prod.Lex (· < ·) (Prod.Lex (· < ·) (· < ·)) inner.weight outer.weight := by
  cases begins <;> simp [Task.weight, Prod.lex_def]

/-- A task has been carried out, from one machine to another. -/
inductive Task.Ends : Task -> Machine -> Machine -> Prop
  | evaluate {fuel value machine result after}
      (ended : Eval.evaluate fuel value machine = .ok result after) :
      Ends (.evaluate fuel value) machine after
  | each {fuel values machine results after}
      (ended : Eval.each (Eval.evaluate fuel) values machine = .ok results after) :
      Ends (.each fuel values) machine after
  | execute {fuel step machine flow after}
      (ended : Eval.execute fuel step machine = .ok flow after) :
      Ends (.execute fuel step) machine after

/-- A task has got from its machine to another one, by carrying out tasks that it began. -/
inductive Task.GetsTo (task : Task) (machine : Machine) : Machine -> Prop
  | start : GetsTo task machine machine
  | further
      {inner : Task}
      {middle after : Machine}
      (before : GetsTo task machine middle)
      (begins : Begins task machine inner middle)
      (ends : inner.Ends middle after) :
      GetsTo task machine after

/-- A task begins another one in a new scope, in a call, or with a method that is bound to a
new instance. -/
inductive Enters : Task -> Machine -> Task -> Machine -> Prop
  | block {fuel body machine} :
      Enters (.execute (fuel + 1) (.block body)) machine (.sequence fuel body)
        { machine with
          heap := (machine.heap.newScope (some machine.scope) .empty).2
          scope := (machine.heap.newScope (some machine.scope) .empty).1 }
  | call {fuel callee paren arguments callable} {machine : Machine} :
      Enters (.invoke fuel callee paren arguments) machine (.call fuel arguments callable)
        { machine with callDepth := machine.callDepth + 1 }
  | setUp {fuel arguments place method} {machine : Machine} :
      Enters (.call fuel arguments (.ofClass place (some method))) machine
        (.callClosure fuel ((machine.heap.newInstance place).2.bindMethod method
          (machine.heap.newInstance place).1).1 arguments)
        { machine with
          heap := ((machine.heap.newInstance place).2.bindMethod method
            (machine.heap.newInstance place).1).2 }
  | body {fuel closure arguments} {machine : Machine} :
      Enters (.callClosure fuel closure arguments) machine
        (.sequence fuel closure.declaration.body)
        { machine with
          heap := (machine.heap.newScope (some closure.scope)
            (Eval.bindParameters closure.declaration.parameters arguments)).2
          scope := (machine.heap.newScope (some closure.scope)
            (Eval.bindParameters closure.declaration.parameters arguments)).1 }

/-- A task begins others where it has got to, or in what it sets up for them. -/
theorem Begins.getsTo_or_enters
    {outer inner : Task}
    {machine final : Machine}
    (begins : Begins outer machine inner final) :
    outer.GetsTo machine final ∨ Enters outer machine inner final := by
  cases begins with
  | binaryRight first => exact .inl (.further .start .binaryLeft (.evaluate first))
  | logicalRight first => exact .inl (.further .start .logicalLeft (.evaluate first))
  | store first => exact .inl (.further .start .assigned (.evaluate first))
  | arguments first => exact .inl (.further .start .callee (.evaluate first))
  | invoke first second =>
    refine .inl (.further ?_ (.arguments first) (.each second))
    exact .further .start .callee (.evaluate first)
  | fieldValue first => exact .inl (.further .start .changedObject (.evaluate first))
  | restOfEach done => exact .inl (.further .start .firstOfEach (.evaluate done))
  | thenBranch tested => exact .inl (.further .start .condition (.evaluate tested))
  | elseBranch tested => exact .inl (.further .start .condition (.evaluate tested))
  | restOfSequence done => exact .inl (.further .start .firstOfSequence (.execute done))
  | loopBody tested => exact .inl (.further .start .loopCondition (.evaluate tested))
  | loopAgain tested holds done =>
    refine .inl (.further ?_ (.loopBody tested holds) (.execute done))
    exact .further .start .loopCondition (.evaluate tested)
  | block => exact .inr .block
  | call => exact .inr .call
  | setUp => exact .inr .setUp
  | body => exact .inr .body
  | _ => exact .inl .start

/-- A task fetches a method for a receiver on a machine that it has got to: by
reading a property, by reading a method of the superclass, or by making an
instance whose class has an initializer. -/
inductive Fetches : Task -> Machine -> Closure -> InstanceRef -> Machine -> Prop
  | property
      {fuel : Nat}
      {object : Expr}
      {name : Token}
      {before machine : Machine}
      {receiver : InstanceRef}
      {found : Instance}
      {method : Closure}
      (evaluated : Eval.evaluate fuel object before = .ok (.object receiver) machine)
      (isInstance : machine.heap.instance? receiver = some found)
      (noField : found.fields.get? name.lexeme = none)
      (isMethod : machine.heap.method? found.ofClass name.lexeme = some method) :
      Fetches (.evaluate (fuel + 1) (.property object name)) before method receiver machine
  | inherited
      {fuel distance : Nat}
      {keyword : Reference}
      {name : Token}
      {machine : Machine}
      {parent : ClassRef}
      {receiver : InstanceRef}
      {method : Closure}
      (filed : machine.distances[keyword.id]? = some distance)
      (isParent : machine.heap.getAt machine.scope distance superclassName = .classObject parent)
      (isReceiver : machine.heap.getAt machine.scope (distance - 1) selfName = .object receiver)
      (isMethod : machine.heap.method? parent name.lexeme = some method) :
      Fetches (.evaluate (fuel + 1) (.inherited keyword name)) machine method receiver machine
  | instantiation
      {fuel : Nat}
      {arguments : List Value}
      {place : ClassRef}
      {method : Closure}
      {machine : Machine}
      (isMethod : machine.heap.method? place initializerName = some method) :
      Fetches (.call fuel arguments (.ofClass place (some method))) machine method
        (machine.heap.newInstance place).1
        { machine with heap := (machine.heap.newInstance place).2 }

/-- A method that is fetched is one of a class. -/
theorem Fetches.method
    {task : Task}
    {before machine : Machine}
    {method : Closure}
    {receiver : InstanceRef}
    (fetches : Fetches task before method receiver machine) :
    ∃ place name, machine.heap.method? place name = some method := by
  cases fetches with
  | property _ _ _ isMethod => exact ⟨_, _, isMethod⟩
  | inherited _ _ _ isMethod => exact ⟨_, _, isMethod⟩
  | instantiation isMethod => exact ⟨_, _, isMethod⟩

/-- A task gets to another one, by beginning it or a task that gets to it. -/
inductive Task.Visits (task : Task) (machine : Machine) : Task -> Machine -> Prop
  | start : Visits task machine task machine
  | further
      {outer inner : Task}
      {middle final : Machine}
      (before : Visits task machine outer middle)
      (begins : Begins outer middle inner final) :
      Visits task machine inner final

namespace Session

/-- The task of a statement at the top level. -/
def topLevelTask (fuel : Nat) : Stmt -> Task
  | .expression value => .evaluate fuel value
  | other => .execute fuel other

/-- The tasks that interpreting a program visits. -/
inductive Visits (fuel : Nat) (echo : Bool) : List Stmt -> Machine -> Task -> Machine -> Prop
  | first
      {first : Stmt}
      {rest : List Stmt}
      {machine final : Machine}
      {task : Task}
      (visits : (topLevelTask fuel first).Visits machine task final) :
      Visits fuel echo (first :: rest) machine task final
  | later
      {first : Stmt}
      {rest : List Stmt}
      {machine middle final : Machine}
      {task : Task}
      (done : executeTopLevel fuel echo first machine = .ok () middle)
      (visits : Visits fuel echo rest middle task final) :
      Visits fuel echo (first :: rest) machine task final

end Session
end TreeWalk
