import TreeWalk.Evaluation
import TreeWalk.Proofs.Bindings

/-!
# The stages of execution

A class declaration is executed in stages, each of which is named here: its
superclass is read, its name is bound, the scope of its methods is made, and at
last the class itself.  So are the second branch of a conditional statement, which
may be missing, what a call does once its scope or its instance has been made, and
how a loop goes on after a round.  Before that, it is said how one evaluation goes
on after another.
-/

namespace TreeWalk

/-- The scope that binds the variable of a reference, if there is one. -/
def Machine.binder? (machine : Machine) (reference : Reference) : Option ScopeRef :=
  match machine.distances[reference.id]? with
  | some distance => some (machine.heap.ancestor machine.scope distance)
  | none => machine.heap.binder? machine.globals reference.name.lexeme

/-- A machine whose clock has been read. -/
def Machine.ticked (machine : Machine) : Machine :=
  { machine with clock := { machine.clock with readings := machine.clock.readings + 1 } }

/-- The heap of a machine on which the name of a class has been bound. -/
def Machine.namingHeap (machine : Machine) (name : Token) : Heap :=
  machine.heap.define machine.scope name.lexeme .null

/-- The heap on which the methods of a class with a superclass are made: its name
is bound, and the scope that binds the superclass has been made. -/
def Machine.subclassHeap (machine : Machine) (name : Token) (parent : ClassRef) : Heap :=
  ((machine.namingHeap name).newScope (some machine.scope)
    (Bindings.empty.set superclassName (.classObject parent))).2

/-- A table of the lineage of a class, if there is that class. -/
theorem Heap.class?_of_mem_lineage
    {heap : Heap}
    {place : ClassRef}
    {table : Bindings Closure}
    (member : table ∈ ((heap.class? place).map (·.lineage)).getD []) :
    ∃ found, heap.class? place = some found ∧ table ∈ found.lineage := by
  cases isClass : heap.class? place with
  | none => simp [isClass] at member
  | some found =>
    rw [isClass] at member
    exact ⟨found, rfl, member⟩

/-- The methods of a class body come from its declarations, and remember its scope. -/
theorem methodTable_get?
    {place : ScopeRef}
    {functions : List FunctionDecl}
    {name : String}
    {closure : Closure}
    (found : (Eval.methodTable place functions).get? name = some closure) :
    ∃ method ∈ functions, closure.declaration = method ∧ closure.scope = place := by
  have all : (Eval.methodTable place functions).All fun _ closure =>
      ∃ method ∈ functions, closure.declaration = method ∧ closure.scope = place :=
    Bindings.All.foldl Bindings.all_empty (fun method : FunctionDecl => method.name.lexeme)
      (fun method => Closure.mk method place (method.name.lexeme = initializerName))
      fun method member => ⟨method, member, rfl, rfl⟩
  exact all name closure found

namespace Eval

section Sequence

variable
  {α β : Type}
  {evaluation : Eval α}
  {machine middle after : Machine}
  {result : α}
  {interruption : Interruption}

/-- Behind a result, the rest goes on from the machine that was left. -/
theorem bind_of_ok
    (ended : evaluation machine = .ok result middle)
    (continuation : α -> Eval β) :
    (evaluation >>= continuation) machine = continuation result middle := by
  change EStateM.bind evaluation continuation machine = continuation result middle
  rw [EStateM.bind, ended]

/-- Behind an interruption, the rest is not run. -/
theorem bind_of_error
    (ended : evaluation machine = .error interruption after)
    (continuation : α -> Eval β) :
    (evaluation >>= continuation) machine = .error interruption after := by
  change EStateM.bind evaluation continuation machine = .error interruption after
  rw [EStateM.bind, ended]

/-- A sequence of evaluations comes to a result exactly when both parts do. -/
theorem bind_eq_ok_iff
    {continuation : α -> Eval β}
    {final : β} :
    (evaluation >>= continuation) machine = .ok final after ↔
      ∃ result middle, evaluation machine = .ok result middle ∧
        continuation result middle = .ok final after := by
  constructor
  · intro ended
    cases first : evaluation machine with
    | error interruption middle =>
      rw [bind_of_error first] at ended
      cases ended
    | ok result middle =>
      rw [bind_of_ok first] at ended
      exact ⟨result, middle, rfl, ended⟩
  · rintro ⟨result, middle, first, second⟩
    exact (bind_of_ok first continuation).trans second

/-- A sequence of evaluations that fails does so in one of its parts. -/
theorem bind_eq_error
    {continuation : α -> Eval β}
    (ended : (evaluation >>= continuation) machine = .error interruption after) :
    evaluation machine = .error interruption after ∨
      ∃ result middle, evaluation machine = .ok result middle ∧
        continuation result middle = .error interruption after := by
  cases first : evaluation machine with
  | error other left =>
    rw [bind_of_error first] at ended
    cases ended
    exact .inl rfl
  | ok result middle =>
    rw [bind_of_ok first] at ended
    exact .inr ⟨result, middle, rfl, ended⟩

end Sequence

/-- The machine that an evaluation leaves, however it ends. -/
def left {α : Type} (evaluation : Eval α) (machine : Machine) : Machine :=
  match evaluation machine with
  | .ok _ after => after
  | .error _ after => after

section Left

variable {α β : Type} {evaluation : Eval α} {machine middle after : Machine}

theorem left_of_ok {result : α} (ended : evaluation machine = .ok result after) :
    evaluation.left machine = after := by
  rw [left, ended]

theorem left_of_error
    {interruption : Interruption}
    (ended : evaluation machine = .error interruption after) :
    evaluation.left machine = after := by
  rw [left, ended]

/-- Behind a result, the rest decides what is left. -/
theorem left_bind_of_ok
    {result : α}
    (ended : evaluation machine = .ok result middle)
    (continuation : α -> Eval β) :
    (evaluation >>= continuation).left machine = (continuation result).left middle := by
  rw [left, bind_of_ok ended, left]

/-- Behind an interruption, what was left then is left. -/
theorem left_bind_of_error
    {interruption : Interruption}
    (ended : evaluation machine = .error interruption after)
    (continuation : α -> Eval β) :
    (evaluation >>= continuation).left machine = after := by
  rw [left, bind_of_error ended]

end Left

/-- Run an evaluation on a machine that is prepared for it, and tidy up behind it
however it ends. -/
def wrapped
    {α : Type}
    (prepare : Machine -> Machine)
    (tidy : Machine -> Machine -> Machine)
    (pass : Interruption -> Interruption)
    (body : Eval α) : Eval α :=
  fun machine =>
    match body (prepare machine) with
    | .ok result after => .ok result (tidy machine after)
    | .error interruption after => .error (pass interruption) (tidy machine after)

section Wrapped

variable
  {α : Type}
  {prepare : Machine -> Machine}
  {tidy : Machine -> Machine -> Machine}
  {pass : Interruption -> Interruption}
  {body : Eval α}
  {machine after : Machine}
  {result : α}
  {interruption : Interruption}

/-- Another scope is put in front and the caller's put back behind. -/
theorem within_eq_wrapped (scope : ScopeRef) (body : Eval α) :
    within scope body =
      wrapped (fun machine => { machine with scope := scope })
        (fun machine after => { after with scope := machine.scope }) id body :=
  rfl

/-- A call is counted in front and uncounted behind, and passes its line on. -/
theorem asCall_eq_wrapped (line : Nat) (body : Eval α) :
    asCall line body =
      wrapped (fun machine => { machine with callDepth := machine.callDepth + 1 })
        (fun _ after => { after with callDepth := after.callDepth - 1 }) (·.orLine line) body :=
  rfl

/-- A wrapped evaluation that ends with a result inside. -/
theorem wrapped_of_ok (ended : body (prepare machine) = .ok result after) :
    wrapped prepare tidy pass body machine = .ok result (tidy machine after) := by
  rw [wrapped, ended]

/-- A wrapped evaluation that is interrupted inside. -/
theorem wrapped_of_error (ended : body (prepare machine) = .error interruption after) :
    wrapped prepare tidy pass body machine = .error (pass interruption) (tidy machine after) := by
  rw [wrapped, ended]

/-- The result of a wrapped evaluation is one from inside. -/
theorem wrapped_eq_ok (ended : wrapped prepare tidy pass body machine = .ok result after) :
    ∃ left, body (prepare machine) = .ok result left ∧ after = tidy machine left := by
  cases inside : body (prepare machine) with
  | ok other left =>
    rw [wrapped_of_ok inside] at ended
    cases ended
    exact ⟨left, rfl, rfl⟩
  | error other left =>
    rw [wrapped_of_error inside] at ended
    cases ended

/-- The interruption of a wrapped evaluation is one from inside, passed on. -/
theorem wrapped_eq_error
    (ended : wrapped prepare tidy pass body machine = .error interruption after) :
    ∃ other left, body (prepare machine) = .error other left ∧ interruption = pass other ∧
      after = tidy machine left := by
  cases inside : body (prepare machine) with
  | ok other left =>
    rw [wrapped_of_ok inside] at ended
    cases ended
  | error other left =>
    rw [wrapped_of_error inside] at ended
    cases ended
    exact ⟨other, left, rfl, rfl, rfl⟩

/-- A wrapped evaluation leaves what its inside left, tidied. -/
theorem left_wrapped
    (prepare : Machine -> Machine)
    (tidy : Machine -> Machine -> Machine)
    (pass : Interruption -> Interruption)
    (body : Eval α)
    (machine : Machine) :
    (wrapped prepare tidy pass body).left machine = tidy machine (body.left (prepare machine)) := by
  rw [left, wrapped, left]
  cases body (prepare machine) <;> rfl

end Wrapped

/-- Reading a variable leaves the machine as it is. -/
theorem eq_of_readVariable
    {reference : Reference}
    {value : Value}
    {machine after : Machine}
    (ended : readVariable reference machine = .ok value after) :
    after = machine := by
  unfold readVariable at ended
  split at ended
  · cases ended
    rfl
  · split at ended
    · cases ended
      rfl
    · cases ended

/-- The class that a reference means is what the reference is read as. -/
theorem readVariable_of_superclassOf
    {reference : Reference}
    {parent : ClassRef}
    {machine after : Machine}
    (found : superclassOf reference machine = .ok parent after) :
    readVariable reference machine = .ok (.classObject parent) machine ∧ after = machine := by
  rw [superclassOf] at found
  obtain ⟨value, middle, outcome, chosen⟩ := bind_eq_ok_iff.mp found
  obtain rfl := eq_of_readVariable outcome
  cases value with
  | classObject place =>
    cases chosen
    exact ⟨outcome, rfl⟩
  | _ => cases chosen

/-- Changing a variable along a chain changes it in the scope that binds it. -/
theorem assignFrom_eq (scope : ScopeRef) (name : Token) (value : Value) (machine : Machine) :
    assignFrom scope name value machine =
      match machine.heap.binder? scope name.lexeme with
      | some place =>
        .ok () { machine with heap := machine.heap.define place name.lexeme value }
      | none =>
        .error (.failure name.line (.undefinedVariable name.lexeme)) machine := by
  unfold assignFrom Heap.assign?
  cases machine.heap.binder? scope name.lexeme <;> rfl

/-- Changing a variable changes it in the scope that binds it. -/
theorem assignVariable_eq (reference : Reference) (value : Value) (machine : Machine) :
    assignVariable reference value machine =
      match machine.binder? reference with
      | some place =>
        .ok () { machine with heap := machine.heap.define place reference.name.lexeme value }
      | none =>
        .error (.failure reference.name.line (.undefinedVariable reference.name.lexeme))
          machine := by
  unfold assignVariable Machine.binder?
  cases machine.distances[reference.id]? with
  | some distance => rfl
  | none => exact assignFrom_eq machine.globals reference.name value machine

/-- Reading the clock goes on to the next reading, also if it fails. -/
theorem readClock_eq (machine : Machine) :
    readClock machine =
      match machine.clock.failure? machine.clock.readings with
      | none => .ok (.number (machine.clock.reading machine.clock.readings)) machine.ticked
      | some text => .error (.failure 0 (.native ("Clock error: " ++ text))) machine.ticked := by
  change (match machine.clock.failure? machine.clock.readings with
    | none => _
    | some text => _ : Eval Value) _ = _
  cases machine.clock.failure? machine.clock.readings <;> rfl

/-- Make a class with the given methods, which remember a scope, and assign it to
its name. -/
def makeClass
    (name : Token)
    (methods : List FunctionDecl)
    (current place : ScopeRef)
    (inherited : List (Bindings Closure)) : Eval Unit := do
  let made ← onHeap (·.newClass ⟨name.lexeme, methodTable place methods :: inherited⟩)
  assignFrom current name (.classObject made)

/-- Make the scope that binds the superclass around the methods of a class. -/
def superclassScope (current : ScopeRef) (parent : ClassRef) : Eval ScopeRef :=
  onHeap (·.newScope (some current) (Bindings.empty.set superclassName (.classObject parent)))

/-- Execute a class declaration from where its superclass is known. -/
def declareClassUnder
    (name : Token)
    (methods : List FunctionDecl)
    (parent : Option ClassRef) : Eval Unit := do
  define name.lexeme .null
  let current := (← get).scope
  match parent with
  | none => makeClass name methods current current []
  | some parent =>
    let place ← superclassScope current parent
    let lineage := (((← get).heap.class? parent).map (·.lineage)).getD []
    makeClass name methods current place lineage

theorem declareClass_none (name : Token) (methods : List FunctionDecl) :
    declareClass name none methods = declareClassUnder name methods none :=
  rfl

/-- With a superclass, that is read first and the class declared under it. -/
theorem declareClass_some
    (name : Token)
    (reference : Reference)
    (methods : List FunctionDecl) :
    declareClass name (some reference) methods =
      superclassOf reference >>= fun parent => declareClassUnder name methods (some parent) :=
  rfl

section Inherited

variable {machine : Machine} {keyword : Reference} {distance : Nat}

/-- What reading a method of the superclass comes to, once the machine has been
looked at. -/
theorem readInherited_eq (machine : Machine) (keyword : Reference) (name : Token) :
    readInherited keyword name machine =
      (match machine.distances[keyword.id]? with
      | none => fail keyword.name.line .inheritedOutsideClass
      | some distance =>
        match machine.heap.getAt machine.scope distance superclassName,
          machine.heap.getAt machine.scope (distance - 1) selfName with
        | .classObject superclass, .object receiver =>
          match machine.heap.method? superclass name.lexeme with
          | some found => bound found receiver
          | none => fail name.line (.undefinedProperty name.lexeme)
        | _, _ => fail keyword.name.line .inheritedOutsideMethod) machine :=
  rfl

/-- Where the superclass and the receiver are bound, the method is looked up in
the superclass and bound to the receiver. -/
theorem readInherited_of_bound
    {parent : ClassRef}
    {receiver : InstanceRef}
    (filed : machine.distances[keyword.id]? = some distance)
    (isParent : machine.heap.getAt machine.scope distance superclassName = .classObject parent)
    (isReceiver : machine.heap.getAt machine.scope (distance - 1) selfName = .object receiver)
    (name : Token) :
    readInherited keyword name machine =
      (match machine.heap.method? parent name.lexeme with
      | some found => bound found receiver
      | none => fail name.line (.undefinedProperty name.lexeme)) machine := by
  rw [readInherited_eq, filed]
  dsimp only
  rw [isParent, isReceiver]

/-- Otherwise there is no method of the superclass to read. -/
theorem readInherited_of_unbound
    (filed : machine.distances[keyword.id]? = some distance)
    (unbound : ∀ parent receiver,
      machine.heap.getAt machine.scope distance superclassName = .classObject parent ->
      machine.heap.getAt machine.scope (distance - 1) selfName ≠ .object receiver)
    (name : Token) :
    readInherited keyword name machine =
      fail keyword.name.line .inheritedOutsideMethod machine := by
  rw [readInherited_eq, filed]
  dsimp only
  generalize machine.heap.getAt machine.scope distance superclassName = parent at unbound ⊢
  generalize machine.heap.getAt machine.scope (distance - 1) selfName = receiver at unbound ⊢
  split
  · exact absurd rfl (unbound _ _ rfl)
  · rfl

end Inherited

/-- Execute a branch that may be missing. -/
def otherwise (execute : Stmt -> Eval Flow) : Option Stmt -> Eval Flow
  | none => return .normal
  | some branch => execute branch

/-- A conditional is its condition, then the branch chosen by the value. -/
theorem execute_conditional
    (fuel : Nat)
    (condition : Expr)
    (thenBranch : Stmt)
    (elseBranch : Option Stmt) :
    execute (fuel + 1) (.conditional condition thenBranch elseBranch) =
      evaluate fuel condition >>= fun tested =>
        if tested.isTruthy then execute fuel thenBranch
        else otherwise (execute fuel) elseBranch := by
  cases elseBranch with
  | none =>
    rw [execute]
    rfl
  | some branch =>
    rw [execute]
    rfl

/-- Carry out a call whose scope has been made. -/
def finishCall
    (execute : Stmt -> Eval Flow)
    (closure : Closure)
    (scope : ScopeRef) : Eval Value := do
  let flow ← within scope (sequence execute closure.declaration.body)
  if closure.isInitializer then
    return (← get).heap.getAt closure.scope 0 selfName
  else
    match flow with
    | .normal => return .null
    | .returned value => return value

/-- A call of a closure makes its scope, then runs the body there. -/
theorem callClosure_eq
    (execute : Stmt -> Eval Flow)
    (closure : Closure)
    (arguments : List Value) :
    callClosure execute closure arguments =
      onHeap (·.newScope (some closure.scope)
        (bindParameters closure.declaration.parameters arguments)) >>=
          finishCall execute closure :=
  rfl

/-- Run the initializer of an instance that has been made, if there is one. -/
def setUp
    (execute : Stmt -> Eval Flow)
    (initializer : Option Closure)
    (arguments : List Value)
    (receiver : InstanceRef) : Eval Value := do
  match initializer with
  | none => return .object receiver
  | some method =>
    let closure ← onHeap (·.bindMethod method receiver)
    let _ ← callClosure execute closure arguments
    return .object receiver

/-- A call of a class makes the instance, then sets it up. -/
theorem instantiate_eq
    (execute : Stmt -> Eval Flow)
    (place : ClassRef)
    (initializer : Option Closure)
    (arguments : List Value) :
    instantiate execute place initializer arguments =
      onHeap (·.newInstance place) >>= setUp execute initializer arguments :=
  rfl

/-- Call what a value is as a callable, if it is one, at a given depth. -/
def invokeAt
    (execute : Stmt -> Eval Flow)
    (line : Nat)
    (arguments : List Value)
    (depth : Nat) : Option Callable -> Eval Value
  | none => fail line .notCallable
  | some callable =>
    if arguments.length ≠ callable.arity then
      fail line (.wrongArity callable.arity arguments.length)
    else if maxCallDepth ≤ depth then
      fail line .stackOverflow
    else
      asCall line (call execute arguments callable)

/-- An invocation is decided by the depth and by how the callee can be called. -/
theorem invoke_apply
    (execute : Stmt -> Eval Flow)
    (callee : Value)
    (paren : Token)
    (arguments : List Value)
    (machine : Machine) :
    invoke execute callee paren arguments machine =
      invokeAt execute paren.line arguments machine.callDepth (machine.heap.callable? callee)
        machine :=
  rfl

/-- Go on with a loop after a round of it, unless the round returned. -/
def goOnAfter (more : Eval Flow) : Flow -> Eval Flow
  | .normal => more
  | .returned value => return .returned value

/-- A round of a loop is its condition, then its body, then the loop with less fuel. -/
theorem repeatWhile_succ (fuel : Nat) (condition : Expr) (body : Stmt) :
    repeatWhile (fuel + 1) condition body = do
      let holds ← Value.isTruthy <$> evaluate fuel condition
      if holds then
        execute fuel body >>= goOnAfter (repeatWhile fuel condition body)
      else
        return .normal := by
  rw [repeatWhile]
  symm
  exact bind_map_left Value.isTruthy _ _

end Eval
end TreeWalk
