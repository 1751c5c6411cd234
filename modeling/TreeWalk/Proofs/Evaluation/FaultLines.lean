import TreeWalk.Proofs.Evaluation.Code
import TreeWalk.Proofs.Evaluation.Failures

/-!
# The lines of failures

A task that fails itself reports the line of one of its own tokens.  The exceptions
are calls of native functions, whose failures have no line: they get that of the
closing parenthesis of the call expression which the native function was called by.
A failure that has a line keeps it.  So if all tokens are on line one or later, every
failure that comes out of a task has the line of the token that is responsible.
-/

namespace TreeWalk

/-- Whether a native function has raised a fault. -/
def RuntimeFault.isNative : RuntimeFault -> Bool
  | .native _ => true
  | _ => false

/-- A failure at the line of one of some tokens, that no native function has
raised. -/
def Interruption.IsAt (tokens : List Token) (interruption : Interruption) : Prop :=
  ∃ token ∈ tokens, ∃ fault : RuntimeFault,
    interruption = .failure token.line fault ∧ fault.isNative = false

/-- An evaluation is interrupted only by failures at some tokens. -/
def FailsOnlyAt {α : Type} (tokens : List Token) (evaluation : Eval α) : Prop :=
  ∀ ⦃machine : Machine⦄ ⦃interruption : Interruption⦄ ⦃after : Machine⦄,
    evaluation machine = .error interruption after -> interruption.IsAt tokens

section Rules

variable {α β : Type} {tokens : List Token} {evaluation : Eval α}

theorem failsOnlyAt_pure (result : α) : FailsOnlyAt tokens (pure result) := by
  intro machine interruption after failed
  cases failed

theorem failsOnlyAt_onHeap (step : Heap -> α × Heap) : FailsOnlyAt tokens (Eval.onHeap step) := by
  intro machine interruption after failed
  cases failed

/-- A failure on the line of one of the tokens. -/
theorem failsOnlyAt_fail
    {token : Token}
    {fault : RuntimeFault}
    (member : token ∈ tokens)
    (ordinary : fault.isNative = false) :
    FailsOnlyAt tokens (Eval.fail token.line fault : Eval α) := by
  intro machine interruption after failed
  cases failed
  exact ⟨token, member, fault, rfl, ordinary⟩

/-- Two evaluations in a row fail only where each of them does. -/
theorem FailsOnlyAt.bind
    {continuation : α -> Eval β}
    (first : FailsOnlyAt tokens evaluation)
    (second : ∀ result, FailsOnlyAt tokens (continuation result)) :
    FailsOnlyAt tokens (evaluation >>= continuation) := by
  intro machine interruption after failed
  rcases Eval.bind_eq_error failed with failed | ⟨result, middle, -, failed⟩
  · exact first failed
  · exact second result failed

theorem failsOnlyAt_get
    {continuation : Machine -> Eval β}
    (rest : ∀ machine, FailsOnlyAt tokens (continuation machine)) :
    FailsOnlyAt tokens (get >>= continuation) :=
  fun machine _ _ failed => rest machine failed

end Rules

section Steps

/-- A unary operation fails on the line of its operator. -/
theorem failsOnlyAt_applyUnary (operator : Token) (right : Value) :
    FailsOnlyAt [operator] (Eval.applyUnary operator right) := by
  unfold Eval.applyUnary
  split
  · exact failsOnlyAt_pure _
  · split
    · exact failsOnlyAt_pure _
    · exact failsOnlyAt_fail (by simp) rfl
  · exact failsOnlyAt_fail (by simp) rfl

/-- An addition fails on the line of its operator. -/
theorem failsOnlyAt_add (operator : Token) (left right : Value) :
    FailsOnlyAt [operator] (Eval.add operator left right) := by
  unfold Eval.add
  split
  · exact failsOnlyAt_pure _
  · exact failsOnlyAt_get fun _ => failsOnlyAt_pure _
  · exact failsOnlyAt_get fun _ => failsOnlyAt_pure _
  · exact failsOnlyAt_fail (by simp) rfl

/-- An operation on numbers fails on the line of its operator. -/
theorem failsOnlyAt_applyNumeric (operator : Token) (x y : Float) :
    FailsOnlyAt [operator] (Eval.applyNumeric operator x y) := by
  unfold Eval.applyNumeric
  split
  case h_8 => exact failsOnlyAt_fail (by simp) rfl
  all_goals exact failsOnlyAt_pure _

/-- A binary operation fails on the line of its operator. -/
theorem failsOnlyAt_applyBinary (operator : Token) (left right : Value) :
    FailsOnlyAt [operator] (Eval.applyBinary operator left right) := by
  unfold Eval.applyBinary
  split
  · exact failsOnlyAt_pure _
  · exact failsOnlyAt_pure _
  · exact failsOnlyAt_add operator left right
  · split
    · exact failsOnlyAt_applyNumeric operator _ _
    · exact failsOnlyAt_fail (by simp) rfl

/-- An undefined variable is reported on the line of its name. -/
theorem failsOnlyAt_readVariable
    {tokens : List Token}
    {reference : Reference}
    (member : reference.name ∈ tokens) :
    FailsOnlyAt tokens (Eval.readVariable reference) := by
  intro machine interruption after failed
  unfold Eval.readVariable at failed
  split at failed
  · cases failed
  · split at failed
    · cases failed
    · exact failsOnlyAt_fail member rfl failed

/-- An assignment from a scope outwards fails on the line of the name. -/
theorem failsOnlyAt_assignFrom
    {tokens : List Token}
    {name : Token}
    (scope : ScopeRef)
    (value : Value)
    (member : name ∈ tokens) :
    FailsOnlyAt tokens (Eval.assignFrom scope name value) := by
  intro machine interruption after failed
  rw [Eval.assignFrom_eq] at failed
  split at failed
  · cases failed
  · exact failsOnlyAt_fail member rfl failed

/-- An assignment to an undefined variable is reported on the line of its name. -/
theorem failsOnlyAt_assignVariable (reference : Reference) (value : Value) :
    FailsOnlyAt [reference.name] (Eval.assignVariable reference value) := by
  intro machine interruption after failed
  rw [Eval.assignVariable_eq] at failed
  split at failed
  · cases failed
  · exact failsOnlyAt_fail (by simp) rfl failed

/-- An undefined property is reported on the line of its name. -/
theorem failsOnlyAt_readProperty (receiver : InstanceRef) (name : Token) :
    FailsOnlyAt [name] (Eval.readProperty receiver name) := by
  refine failsOnlyAt_get fun machine => ?_
  dsimp only
  split
  · exact failsOnlyAt_pure _
  · split
    · exact failsOnlyAt_onHeap _
    · exact failsOnlyAt_fail (by simp) rfl

/-- A method that the superclass lacks is reported on the line of its name, and a
misplaced keyword on its own. -/
theorem failsOnlyAt_readInherited (keyword : Reference) (method : Token) :
    FailsOnlyAt [keyword.name, method] (Eval.readInherited keyword method) := by
  refine failsOnlyAt_get fun machine => ?_
  split
  · exact failsOnlyAt_fail (by simp) rfl
  · split
    · split
      · exact failsOnlyAt_onHeap _
      · exact failsOnlyAt_fail (by simp) rfl
    · exact failsOnlyAt_fail (by simp) rfl

/-- A superclass that is no class is reported on the line of its name. -/
theorem failsOnlyAt_superclassOf
    {tokens : List Token}
    {reference : Reference}
    (member : reference.name ∈ tokens) :
    FailsOnlyAt tokens (Eval.superclassOf reference) := by
  refine (failsOnlyAt_readVariable member).bind fun value => ?_
  split
  · exact failsOnlyAt_pure _
  · exact failsOnlyAt_fail member rfl

/-- The declaration of a class under a given parent fails on the line of the name. -/
theorem failsOnlyAt_declareClassUnder
    {tokens : List Token}
    {name : Token}
    (functions : List FunctionDecl)
    (parent : Option ClassRef)
    (member : name ∈ tokens) :
    FailsOnlyAt tokens (Eval.declareClassUnder name functions parent) := by
  have defined : FailsOnlyAt tokens (Eval.define name.lexeme .null) := by
    intro machine interruption after failed
    cases failed
  have made : ∀ current place inherited,
      FailsOnlyAt tokens (Eval.makeClass name functions current place inherited) :=
    fun _ _ _ => (failsOnlyAt_onHeap _).bind fun _ => failsOnlyAt_assignFrom _ _ member
  refine defined.bind fun _ => failsOnlyAt_get fun machine => ?_
  cases parent with
  | none => exact made _ _ _
  | some parent =>
    exact (failsOnlyAt_onHeap _).bind fun _ => failsOnlyAt_get fun _ => made _ _ _

/-- The declaration of a class fails on the line of its name or of its superclass's. -/
theorem failsOnlyAt_declareClass
    (name : Token)
    (superclass : Option Reference)
    (functions : List FunctionDecl) :
    FailsOnlyAt (name :: superclass.toList.map (·.name))
      (Eval.declareClass name superclass functions) := by
  cases superclass with
  | none => exact failsOnlyAt_declareClassUnder functions none (by simp)
  | some reference =>
    rw [Eval.declareClass_some]
    exact (failsOnlyAt_superclassOf (by simp)).bind fun parent =>
      failsOnlyAt_declareClassUnder functions (some parent) (by simp)

end Steps

/-- The tokens at which an expression fails itself. -/
def Expr.ownTokens : Expr -> List Token
  | .unary operator _ => [operator]
  | .binary _ operator _ => [operator]
  | .read target => [target.name]
  | .assign target _ => [target.name]
  | .property _ name => [name]
  | .setProperty _ name _ => [name]
  | .self keyword => [keyword.name]
  | .inherited keyword method => [keyword.name, method]
  | _ => []

/-- The tokens at which a task fails itself.  A call fails at its closing
parenthesis. -/
def Task.ownTokens : Task -> List Token
  | .evaluate _ value => value.ownTokens
  | .execute _ (.classDecl name parent _) => name :: parent.toList.map (·.name)
  | .invoke _ _ paren _ => [paren]
  | _ => []

/-- The tokens a task itself answers for are among those of its part. -/
theorem Task.mem_tokens_of_mem_ownTokens
    {task : Task}
    {token : Token}
    (own : token ∈ task.ownTokens) :
    token ∈ task.tokens := by
  cases task with
  | evaluate fuel value =>
    cases value <;>
      simp only [Task.ownTokens, Expr.ownTokens, Task.tokens, Expr.tokens, List.mem_append,
        List.mem_cons, List.not_mem_nil, or_false] at own ⊢ <;>
      tauto
  | execute fuel step =>
    cases step with
    | classDecl name superclass functions =>
      simp only [Task.ownTokens, Task.tokens, Stmt.tokens, List.mem_append, List.mem_cons] at own ⊢
      tauto
    | _ => simp [Task.ownTokens] at own
  | invoke fuel callee paren arguments => exact own
  | _ => simp [Task.ownTokens] at own

/-- The text of the error that a native function gives, if it does. -/
def Native.error? (function : Native) (arguments : List Value) (clock : Clock) : Option String :=
  match function.body with
  | .clock => (clock.failure? clock.readings).map ("Clock error: " ++ ·)
  | .compute apply =>
    match apply arguments with
    | .ok _ => none
    | .error text => some text

/-- Why a task fails itself: at one of its own tokens, by the error of a native
function, because the output has no room for a line, or for want of fuel. -/
inductive Task.Cause : Task -> Machine -> Interruption -> Machine -> Prop
  | ownToken {task machine interruption after}
      (isAt : interruption.IsAt task.ownTokens) :
      Cause task machine interruption after
  | native {fuel arguments function text after} {machine : Machine}
      (raised : function.error? arguments machine.clock = some text) :
      Cause (.call fuel arguments (.native function)) machine (.failure 0 (.native text)) after
  | fullOutput {fuel value result text after} {machine middle : Machine}
      (evaluated : Eval.evaluate fuel value machine = .ok result middle)
      (refused : Eval.printLine result middle = .error (.outputFull text) after) :
      Cause (.execute (fuel + 1) (.print value)) machine (.outputFull text) after
  | spentFuel {task machine after} :
      Cause task machine .outOfFuel after

/-- Only its own error interrupts a native function. -/
theorem Eval.callNative_eq_error
    {function : Native}
    {arguments : List Value}
    {machine after : Machine}
    {interruption : Interruption}
    (failed : Eval.callNative function arguments machine = .error interruption after) :
    ∃ text, function.error? arguments machine.clock = some text ∧
      interruption = .failure 0 (.native text) := by
  unfold Eval.callNative at failed
  unfold Native.error?
  cases isBody : function.body with
  | clock =>
    simp only [isBody, readClock_eq] at failed
    cases fails : machine.clock.failure? machine.clock.readings with
    | none =>
      rw [fails] at failed
      cases failed
    | some text =>
      rw [fails] at failed
      cases failed
      exact ⟨_, rfl, rfl⟩
  | compute apply =>
    rw [isBody] at failed
    cases raised : apply arguments with
    | ok value =>
      simp only [raised] at failed
      cases failed
    | error text =>
      simp only [raised] at failed
      cases failed
      exact ⟨text, by simp only [raised], rfl⟩

/-- A native function that gives an error is interrupted by it. -/
theorem Eval.callNative_of_error?
    {function : Native}
    {arguments : List Value}
    {machine : Machine}
    {text : String}
    (raised : function.error? arguments machine.clock = some text) :
    ∃ after, Eval.callNative function arguments machine =
      .error (.failure 0 (.native text)) after := by
  unfold Native.error? at raised
  unfold Eval.callNative
  cases isBody : function.body with
  | clock =>
    rw [isBody] at raised
    obtain ⟨message, fails, rfl⟩ := Option.map_eq_some_iff.mp raised
    refine ⟨machine.ticked, ?_⟩
    dsimp only
    rw [readClock_eq, fails]
  | compute apply =>
    rw [isBody] at raised
    cases computed : apply arguments with
    | ok value =>
      simp only [computed] at raised
      cases raised
    | error message =>
      simp only [computed] at raised
      cases raised
      refine ⟨machine, ?_⟩
      simp only [computed]
      rfl

/-- Only a full output interrupts printing. -/
theorem Eval.printLine_eq_error
    {value : Value}
    {machine after : Machine}
    {interruption : Interruption}
    (failed : Eval.printLine value machine = .error interruption after) :
    interruption = .outputFull machine.output.fullText := by
  unfold Eval.printLine at failed
  dsimp only at failed
  split at failed
  · cases failed
  · cases failed
    rfl

/-- Whenever a task fails itself, there is a cause. -/
theorem Task.FailsItself.cause
    {task : Task}
    {machine after : Machine}
    {interruption : Interruption}
    (itself : task.FailsItself machine interruption after) :
    task.Cause machine interruption after := by
  cases itself with
  | outOfFuel spent => exact .spentFuel
  | unary _ failed => exact .ownToken (failsOnlyAt_applyUnary _ _ failed)
  | binary _ _ failed => exact .ownToken (failsOnlyAt_applyBinary _ _ _ failed)
  | read failed =>
    exact .ownToken (failsOnlyAt_readVariable (by simp [ownTokens, Expr.ownTokens]) failed)
  | assign _ failed => exact .ownToken (failsOnlyAt_assignVariable _ _ failed)
  | @noProperties _ _ name => exact .ownToken ⟨name, List.mem_singleton_self _, _, rfl, rfl⟩
  | property _ failed => exact .ownToken (failsOnlyAt_readProperty _ _ failed)
  | @noFields _ _ name => exact .ownToken ⟨name, List.mem_singleton_self _, _, rfl, rfl⟩
  | self failed =>
    exact .ownToken (failsOnlyAt_readVariable (by simp [ownTokens, Expr.ownTokens]) failed)
  | inherited failed => exact .ownToken (failsOnlyAt_readInherited _ _ failed)
  | print evaluated failed =>
    cases Eval.printLine_eq_error failed
    exact .fullOutput evaluated failed
  | classDecl failed => exact .ownToken (failsOnlyAt_declareClass _ _ _ failed)
  | @notCallable _ _ paren => exact .ownToken ⟨paren, List.mem_singleton_self _, _, rfl, rfl⟩
  | @wrongArity _ _ paren => exact .ownToken ⟨paren, List.mem_singleton_self _, _, rfl, rfl⟩
  | @stackOverflow _ _ paren => exact .ownToken ⟨paren, List.mem_singleton_self _, _, rfl, rfl⟩
  | native failed =>
    obtain ⟨text, raised, rfl⟩ := Eval.callNative_eq_error failed
    exact .native raised

/-- A stage of a call behind the evaluation of its parts. -/
def Task.isCall : Task -> Bool
  | .invoke _ _ _ _ => true
  | .call _ _ _ => true
  | .callClosure _ _ _ => true
  | _ => false

/-- A call expression comes to call a native function directly, and the native
function gives an error. -/
inductive NativeRaises (fuel : Nat) (callee : Expr) (arguments : List Expr) (machine : Machine)
    (text : String) : Prop
  | intro
      {value : Value}
      {middle final : Machine}
      {values : List Value}
      {function : Native}
      (evaluated : Eval.evaluate fuel callee machine = .ok value middle)
      (argued : Eval.each (Eval.evaluate fuel) arguments middle = .ok values final)
      (found : final.heap.callable? value = some (.native function))
      (matching : values.length = function.arity)
      (shallow : final.callDepth < maxCallDepth)
      (raised : function.error? values final.clock = some text)

section Natives

variable
  {fuel : Nat}
  {callee : Expr}
  {paren : Token}
  {arguments : List Expr}
  {machine : Machine}
  {text : String}

/-- The error of a native function fails the call at its closing parenthesis. -/
theorem NativeRaises.fails
    (raises : NativeRaises fuel callee arguments machine text)
    (paren : Token) :
    ∃ after, (Task.evaluate (fuel + 1) (.call callee paren arguments)).Fails machine
      (.failure paren.line (.native text)) after := by
  obtain @⟨value, middle, final, values, function, evaluated, argued, found, matching, shallow,
    raised⟩ := raises
  have calledFails : ∃ left, (Task.call fuel values (.native function)).Fails
      { final with callDepth := final.callDepth + 1 } (.failure 0 (.native text)) left :=
    Eval.callNative_of_error? raised
  obtain ⟨left, calledFails⟩ := calledFails
  obtain ⟨between, invokedFails, -⟩ := (Begins.call found matching shallow).fails calledFails
  obtain ⟨after, fails, -⟩ := (Begins.invoke evaluated argued).fails invokedFails
  exact ⟨after, fails⟩

/-- A native function that gives an error has been called by a call expression. -/
theorem Task.Visits.nativeRaises
    {task : Task}
    {start final : Machine}
    {values : List Value}
    {function : Native}
    (visits : task.Visits start (.call fuel values (.native function)) final)
    (noCall : task.isCall = false)
    (raised : function.error? values final.clock = some text) :
    ∃ callee paren arguments machine,
      task.Visits start (.evaluate (fuel + 1) (.call callee paren arguments)) machine ∧
        NativeRaises fuel callee arguments machine text := by
  cases visits with
  | start => cases noCall
  | further before calls =>
    cases calls with
    | call found matching shallow =>
      cases before with
      | start => cases noCall
      | further before invokes =>
        cases invokes with
        | invoke evaluated argued =>
          exact ⟨_, _, _, _, before, .intro evaluated argued found matching shallow raised⟩

end Natives

/-- What is responsible for a failure: a visited task that failed itself at one of its
own tokens, or a visited call expression that called a native function directly. -/
inductive Responsible (visited : Task -> Machine -> Prop) (line : Nat) (fault : RuntimeFault) :
    Prop
  | ownToken
      {task : Task}
      {machine after : Machine}
      {token : Token}
      (visits : visited task machine)
      (fails : task.FailsItself machine (.failure line fault) after)
      (own : token ∈ task.ownTokens)
      (isLine : token.line = line)
      (ordinary : fault.isNative = false)
  | native
      {fuel : Nat}
      {callee : Expr}
      {paren : Token}
      {arguments : List Expr}
      {machine : Machine}
      {text : String}
      (visits : visited (.evaluate (fuel + 1) (.call callee paren arguments)) machine)
      (raises : NativeRaises fuel callee arguments machine text)
      (isLine : paren.line = line)
      (isFault : fault = .native text)

section Responsibility

variable {visited : Task -> Machine -> Prop} {line : Nat} {fault : RuntimeFault}

/-- The line is that of a token of the code of a visited task. -/
theorem Responsible.exists_token (responsible : Responsible visited line fault) :
    ∃ task machine, ∃ token ∈ task.tokens, visited task machine ∧ token.line = line := by
  cases responsible with
  | ownToken visits _ own isLine =>
    exact ⟨_, _, _, Task.mem_tokens_of_mem_ownTokens own, visits, isLine⟩
  | native visits _ isLine => exact ⟨_, _, _, by simp [Task.tokens, Expr.tokens], visits, isLine⟩

/-- Who is responsible among some tasks is so among more of them. -/
theorem Responsible.mono
    {more : Task -> Machine -> Prop}
    (responsible : Responsible visited line fault)
    (included : ∀ task machine, visited task machine -> more task machine) :
    Responsible more line fault := by
  cases responsible with
  | ownToken visits fails own isLine ordinary =>
    exact .ownToken (included _ _ visits) fails own isLine ordinary
  | native visits raises isLine isFault =>
    exact .native (included _ _ visits) raises isLine isFault

end Responsibility

/-- If all code has lines, every failure that comes out of a task has the line of what
is responsible for it. -/
theorem Task.Fails.responsible
    {task : Task}
    {machine after : Machine}
    {line : Nat}
    {fault : RuntimeFault}
    (fails : task.Fails machine (.failure line fault) after)
    (noCall : task.isCall = false)
    (lined : task.WrittenIn (fun token => 1 ≤ token.line) machine) :
    Responsible (task.Visits machine) line fault := by
  obtain ⟨inner, final, other, left, visits, innerFails, itself⟩ := fails.exists_failsItself
  have settles : other.IsSettled -> other = .failure line fault := by
    intro settled
    obtain ⟨_, comesOut, -⟩ := visits.fails innerFails settled
    exact (comesOut.unique fails).1
  cases itself.cause with
  | ownToken isAt =>
    obtain ⟨token, own, ownFault, rfl, ordinary⟩ := isAt
    have positive : 1 ≤ token.line :=
      (visits.writtenIn lined).tokens token (mem_tokens_of_mem_ownTokens own)
    have same := settles (Nat.ne_of_gt positive)
    cases same
    exact .ownToken visits itself own rfl ordinary
  | native raised =>
    -- The failure has no line yet, so it is followed from the call expression on, which
    -- has given it one.
    obtain ⟨callee, paren, arguments, calling, visitsCall, raises⟩ :=
      visits.nativeRaises noCall raised
    have positive : 1 ≤ paren.line :=
      (visitsCall.writtenIn lined).tokens paren (by simp [Task.tokens, Expr.tokens])
    obtain ⟨between, callFails⟩ := raises.fails paren
    obtain ⟨_, comesOut, -⟩ := visitsCall.fails callFails (Nat.ne_of_gt positive)
    have same := (comesOut.unique fails).1
    cases same
    exact .native visitsCall raises rfl rfl
  | fullOutput => cases settles trivial
  | spentFuel => cases settles trivial

end TreeWalk
