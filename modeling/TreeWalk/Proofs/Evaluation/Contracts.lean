import TreeWalk.Proofs.Evaluation.Stages
import TreeWalk.Proofs.Evaluation.Visits
import TreeWalk.Proofs.Output

/-!
# What evaluation keeps to

An invariant of evaluation is shown of the steps that evaluate nothing else, and is kept
by the ways in which evaluations are put together.  A `Judgment` is kept in this way.  A
`Contract` adds which tasks may be begun and what holds of the values that there are, and
asks for the steps.  The induction over the evaluator is carried out here, once for all
contracts: a task that may be begun conforms to its contract, and so does every task that
it gets to.
-/

namespace TreeWalk

/-- A fault of reading a method of the superclass where there is none to be read. -/
def RuntimeFault.isMisplacedSuper : RuntimeFault -> Bool
  | .inheritedOutsideClass => true
  | .inheritedOutsideMethod => true
  | _ => false

/-- If a statement returns, its value has a property. -/
def Flow.Returns (property : Value -> Prop) : Flow -> Prop
  | .normal => True
  | .returned value => property value

/-- The arguments of a call have a property. -/
def Task.Passes (property : Value -> Prop) : Task -> Prop
  | .invoke _ _ _ arguments => ∀ value ∈ arguments, property value
  | .call _ arguments _ => ∀ value ∈ arguments, property value
  | .callClosure _ _ arguments => ∀ value ∈ arguments, property value
  | _ => True

/-- A property of all values is passed on by every task. -/
theorem Task.passes_of_forall
    {property : Value -> Prop}
    (every : ∀ value, property value)
    (task : Task) :
    task.Passes property := by
  cases task with
  | invoke | call | callClosure => exact fun value _ => every value
  | _ => trivial

/-- A way to judge evaluations, each on the machine on which it begins and with what is
stated of its result.  From a sound machine, evaluation leads to sound machines.  What an
evaluation looks at, it sees whatever the output is. -/
structure Judgment where
  sound : Machine -> Prop
  leads : Machine -> Machine -> Prop
  judged : {α : Type} -> Eval α -> Machine -> (Heap -> α -> Prop) -> Prop
  sound_moved : ∀ {machine : Machine} (scope : ScopeRef) (depth : Nat),
    sound machine -> sound { machine with scope := scope, callDepth := depth }
  leads_refl : ∀ {machine : Machine}, sound machine -> leads machine machine
  leads_trans : ∀ {before middle after : Machine},
    leads before middle -> leads middle after -> leads before after
  judged_of_sound : ∀ {α : Type} {evaluation : Eval α} {machine : Machine}
    {stated : Heap -> α -> Prop},
    (sound machine -> judged evaluation machine stated) -> judged evaluation machine stated
  judged_ok : ∀ {α : Type} {evaluation : Eval α} {machine after : Machine} {result : α}
    {stated : Heap -> α -> Prop},
    judged evaluation machine stated -> sound machine -> evaluation machine = .ok result after ->
      leads machine after ∧ sound after ∧ stated after.heap result
  judged_pure : ∀ {α : Type} {result : α} {machine : Machine} {stated : Heap -> α -> Prop},
    stated machine.heap result -> judged (pure result) machine stated
  judged_bind : ∀ {α β : Type} {evaluation : Eval α} {continuation : α -> Eval β}
    {machine : Machine} {between : Heap -> α -> Prop} {stated : Heap -> β -> Prop},
    judged evaluation machine between ->
    (∀ result after, evaluation machine = .ok result after -> leads machine after ->
      between after.heap result -> judged (continuation result) after stated) ->
    judged (evaluation >>= continuation) machine stated
  judged_get : ∀ {α : Type} {continuation : Machine -> Eval α} {machine : Machine}
    {stated : Heap -> α -> Prop},
    (∀ output, continuation (machine.writingTo output) = continuation machine) ->
    judged (continuation machine) machine stated -> judged (get >>= continuation) machine stated
  judged_within : ∀ {α : Type} {body : Eval α} {machine : Machine} {scope : ScopeRef}
    {stated : Heap -> α -> Prop},
    judged body { machine with scope := scope } stated ->
      judged (Eval.within scope body) machine stated
  judged_asCall : ∀ {α : Type} {body : Eval α} {machine : Machine} {line : Nat}
    {stated : Heap -> α -> Prop},
    judged body { machine with callDepth := machine.callDepth + 1 } stated ->
      judged (Eval.asCall line body) machine stated

/-- What a task comes to is judged, given what is stated of values.  The last step of an
assignment and the reading of a superclass are judged as parts of the tasks around
them. -/
def Judgment.Conforms
    (judgment : Judgment)
    (holds : Heap -> Value -> Prop)
    (machine : Machine) : Task -> Prop
  | .evaluate fuel value => judgment.judged (Eval.evaluate fuel value) machine holds
  | .each fuel values =>
    judgment.judged (Eval.each (Eval.evaluate fuel) values) machine fun heap results =>
      ∀ result ∈ results, holds heap result
  | .store _ _ => True
  | .execute fuel step =>
    judgment.judged (Eval.execute fuel step) machine fun heap flow => flow.Returns (holds heap)
  | .sequence fuel steps =>
    judgment.judged (Eval.sequence (Eval.execute fuel) steps) machine fun heap flow =>
      flow.Returns (holds heap)
  | .repeatWhile fuel condition body =>
    judgment.judged (Eval.repeatWhile fuel condition body) machine fun heap flow =>
      flow.Returns (holds heap)
  | .superclass _ _ => True
  | .invoke fuel callee paren arguments =>
    judgment.judged (Eval.invoke (Eval.execute fuel) callee paren arguments) machine holds
  | .call fuel arguments callable =>
    judgment.judged (Eval.call (Eval.execute fuel) arguments callable) machine holds
  | .callClosure fuel closure arguments =>
    judgment.judged (Eval.callClosure (Eval.execute fuel) closure arguments) machine holds

/-- That the machine is sound may be used at once. -/
theorem Judgment.conforms_of_sound
    (judgment : Judgment)
    {holds : Heap -> Value -> Prop}
    {machine : Machine}
    {task : Task}
    (conforms : judgment.sound machine -> judgment.Conforms holds machine task) :
    judgment.Conforms holds machine task := by
  cases task with
  | store target value => trivial
  | superclass name reference => trivial
  | _ => exact judgment.judged_of_sound conforms

/-- A task has led to a machine, or has set it up for a task that it enters. -/
def Judgment.Reaches
    (judgment : Judgment)
    (outer : Task)
    (machine : Machine)
    (inner : Task)
    (final : Machine) : Prop :=
  judgment.leads machine final ∨ Enters outer machine inner final ∧
    judgment.leads machine { final with scope := machine.scope, callDepth := machine.callDepth }

/-- A judgment with the tasks that may be begun, and with what holds of all values.  The
other laws are about the steps that evaluate nothing else, each as part of the task whose
step it is. -/
structure Contract extends Judgment where
  holds : Heap -> Value -> Prop
  admits : Task -> Machine -> Prop
  holds_plain : ∀ {value : Value} (heap : Heap), value.isPlain = true -> holds heap value
  holds_later : ∀ {machine after : Machine} {value : Value},
    leads machine after -> holds machine.heap value -> holds after.heap value
  holds_self : ∀ {machine : Machine} (scope : ScopeRef),
    sound machine -> holds machine.heap (machine.heap.getAt scope 0 selfName)
  admits_begun : ∀ {outer inner : Task} {machine final : Machine},
    admits outer machine -> Begins outer machine inner final -> sound machine -> sound final ->
      toJudgment.Reaches outer machine inner final -> admits inner final
  judged_spent : ∀ {α : Type} {machine : Machine} {stated : Heap -> α -> Prop},
    judged (throw .outOfFuel) machine stated
  judged_fail : ∀ {α : Type} {machine : Machine} {stated : Heap -> α -> Prop} {fault}
    (line : Nat), RuntimeFault.isMisplacedSuper fault = false ->
      judged (Eval.fail line fault) machine stated
  judged_read : ∀ {machine : Machine} (reference : Reference),
    judged (Eval.readVariable reference) machine holds
  judged_assign : ∀ {machine : Machine} {target : Reference} {value : Expr} {result : Value},
    admits (.store target value) machine -> holds machine.heap result ->
      judged (Eval.assignVariable target result) machine fun _ _ => True
  judged_property : ∀ {fuel : Nat} {object : Expr} {name : Token} {before machine : Machine}
    {receiver : InstanceRef},
    admits (.evaluate (fuel + 1) (.property object name)) before ->
      Eval.evaluate fuel object before = .ok (.object receiver) machine ->
        judged (Eval.readProperty receiver name) machine holds
  judged_setField : ∀ {machine : Machine} {value : Value} (receiver : InstanceRef)
    (name : String), holds machine.heap value ->
      judged (Eval.changeHeap (·.setField receiver name value)) machine fun _ _ => True
  judged_inherited : ∀ {fuel : Nat} {keyword : Reference} {method : Token} {machine : Machine},
    admits (.evaluate (fuel + 1) (.inherited keyword method)) machine ->
      judged (Eval.readInherited keyword method) machine holds
  judged_print : ∀ {machine : Machine} (value : Value),
    judged (Eval.printLine value) machine fun _ _ => True
  judged_declare : ∀ {fuel : Nat} {name : Token} {initializer : Option Expr}
    {before machine : Machine} {value : Value},
    admits (.execute (fuel + 1) (.declare name initializer)) before -> leads before machine ->
      holds machine.heap value ->
        judged (Eval.define name.lexeme value) machine fun _ _ => True
  judged_function : ∀ {fuel : Nat} {declaration : FunctionDecl} {machine : Machine},
    admits (.execute (fuel + 1) (.function declaration)) machine ->
      judged (Eval.declareFunction declaration) machine fun _ _ => True
  judged_class : ∀ {fuel : Nat} {name : Token} {superclass : Option Reference}
    {functions : List FunctionDecl} {machine : Machine},
    admits (.execute (fuel + 1) (.classDecl name superclass functions)) machine ->
      judged (Eval.declareClass name superclass functions) machine fun _ _ => True
  judged_native : ∀ {fuel : Nat} {function : Native} {arguments : List Value} {machine : Machine},
    admits (.call fuel arguments (.native function)) machine ->
      (∀ value ∈ arguments, holds machine.heap value) ->
        judged (Eval.callNative function arguments) machine holds
  judged_block : ∀ {machine : Machine},
    judged (Eval.onHeap (·.newScope (some machine.scope) .empty)) machine fun _ _ => True
  judged_parameters : ∀ {machine : Machine} {arguments : List Value} (closure : Closure),
    (∀ value ∈ arguments, holds machine.heap value) ->
      judged (Eval.onHeap (·.newScope (some closure.scope)
        (Eval.bindParameters closure.declaration.parameters arguments))) machine fun _ _ => True
  judged_instance : ∀ {fuel : Nat} {arguments : List Value} {place : ClassRef}
    {initializer : Option Closure} {machine : Machine},
    admits (.call fuel arguments (.ofClass place initializer)) machine ->
      judged (Eval.onHeap (·.newInstance place)) machine fun heap receiver =>
        holds heap (.object receiver)
  judged_receiver : ∀ {machine : Machine} {receiver : InstanceRef} (method : Closure),
    holds machine.heap (.object receiver) ->
      judged (Eval.onHeap (·.bindMethod method receiver)) machine fun _ _ => True

namespace Contract

variable (contract : Contract) {machine : Machine} {fuel : Nat}

/-- A task does what its contract says. -/
def Conforms (machine : Machine) (task : Task) : Prop :=
  contract.toJudgment.Conforms contract.holds machine task

/-- A value that refers to nothing holds everywhere. -/
theorem judged_plain
    {value : Value}
    (plain : value.isPlain = true) :
    contract.judged (pure value) machine contract.holds :=
  contract.judged_pure (contract.holds_plain _ plain)

/-- Applying a unary operator is judged. -/
theorem judged_applyUnary (operator : Token) (right : Value) :
    contract.judged (Eval.applyUnary operator right) machine contract.holds := by
  unfold Eval.applyUnary
  split
  · exact contract.judged_plain rfl
  · split
    · exact contract.judged_plain rfl
    · exact contract.judged_fail _ rfl
  · exact contract.judged_fail _ rfl

/-- Adding or joining is judged. -/
theorem judged_add (operator : Token) (left right : Value) :
    contract.judged (Eval.add operator left right) machine contract.holds := by
  unfold Eval.add
  split
  · exact contract.judged_plain rfl
  · exact contract.judged_get (fun _ => rfl) (contract.judged_plain rfl)
  · exact contract.judged_get (fun _ => rfl) (contract.judged_plain rfl)
  · exact contract.judged_fail _ rfl

/-- Applying a numeric operator is judged. -/
theorem judged_applyNumeric (operator : Token) (x y : Float) :
    contract.judged (Eval.applyNumeric operator x y) machine contract.holds := by
  unfold Eval.applyNumeric
  split
  case h_8 => exact contract.judged_fail _ rfl
  all_goals exact contract.judged_plain rfl

/-- Applying a binary operator is judged. -/
theorem judged_applyBinary (operator : Token) (left right : Value) :
    contract.judged (Eval.applyBinary operator left right) machine contract.holds := by
  unfold Eval.applyBinary
  split
  · exact contract.judged_plain rfl
  · exact contract.judged_plain rfl
  · exact contract.judged_add operator left right
  · split
    · exact contract.judged_applyNumeric operator _ _
    · exact contract.judged_fail _ rfl

/-! ## Tasks -/

/-- A statement that ends normally. -/
theorem judged_normal :
    contract.judged (pure Flow.normal) machine fun heap flow =>
      flow.Returns (contract.holds heap) :=
  contract.judged_pure trivial

/-- Carrying out a call whose scope has been made is judged if its body is. -/
theorem judged_finishCall
    {execute : Stmt -> Eval Flow}
    {closure : Closure}
    {scope : ScopeRef}
    (body : contract.judged (Eval.sequence execute closure.declaration.body)
      { machine with scope := scope } fun heap flow => flow.Returns (contract.holds heap)) :
    contract.judged (Eval.finishCall execute closure scope) machine contract.holds := by
  refine contract.judged_bind (contract.judged_within body) fun flow after _ _ held => ?_
  split
  · exact contract.judged_of_sound fun sound => contract.judged_get (fun _ => rfl)
      (contract.judged_pure (contract.holds_self _ sound))
  · cases flow with
    | normal => exact contract.judged_plain rfl
    | returned value => exact contract.judged_pure held

/-- All tasks conform that a task begins and that may be begun. -/
def BegunConform (task : Task) : Prop :=
  ∀ {machine middle : Machine} {inner : Task}, Begins task machine inner middle ->
    contract.admits inner middle -> inner.Passes (contract.holds middle.heap) ->
      contract.Conforms middle inner

variable {contract}

section Begun

variable
  {task inner : Task}
  {middle : Machine}
  (begun : contract.BegunConform task)
  (admitted : contract.admits task machine)
  (sound : contract.sound machine)

include begun admitted sound

/-- A task that may be begun conforms where it is begun. -/
theorem conforms_begun
    (begins : Begins task machine inner middle)
    (reaches : contract.Reaches task machine inner middle)
    (passes : inner.Passes (contract.holds middle.heap)) :
    contract.Conforms middle inner :=
  contract.conforms_of_sound fun soundThere =>
    begun begins (contract.admits_begun admitted begins sound soundThere reaches) passes

/-- So does one that is begun at once. -/
theorem conforms_first
    (begins : Begins task machine inner machine)
    (passes : inner.Passes (contract.holds machine.heap)) :
    contract.Conforms machine inner :=
  conforms_begun begun admitted sound begins (.inl (contract.leads_refl sound)) passes

/-- So does one that is begun after others. -/
theorem conforms_next
    (begins : Begins task machine inner middle)
    (leads : contract.leads machine middle)
    (passes : inner.Passes (contract.holds middle.heap)) :
    contract.Conforms middle inner :=
  conforms_begun begun admitted sound begins (.inl leads) passes

end Begun

/-- Evaluating expressions in order conforms. -/
theorem conforms_each
    {values : List Expr}
    (begun : contract.BegunConform (.each fuel values))
    (admitted : contract.admits (.each fuel values) machine)
    (sound : contract.sound machine) :
    contract.Conforms machine (.each fuel values) := by
  cases values with
  | nil => exact contract.judged_pure nofun
  | cons first rest =>
    refine contract.judged_bind (conforms_first begun admitted sound .firstOfEach trivial) ?_
    intro value middle evaluated leads held
    refine contract.judged_bind
      (conforms_next begun admitted sound (.restOfEach evaluated) leads trivial) ?_
    intro others after _ further othersHeld
    exact contract.judged_pure
      (List.forall_mem_cons.mpr ⟨contract.holds_later further held, othersHeld⟩)

/-- Executing statements in order conforms. -/
theorem conforms_sequence
    {steps : List Stmt}
    (begun : contract.BegunConform (.sequence fuel steps))
    (admitted : contract.admits (.sequence fuel steps) machine)
    (sound : contract.sound machine) :
    contract.Conforms machine (.sequence fuel steps) := by
  cases steps with
  | nil => exact contract.judged_normal
  | cons first rest =>
    refine contract.judged_bind (conforms_first begun admitted sound .firstOfSequence trivial) ?_
    intro flow middle executed leads held
    cases flow with
    | normal => exact conforms_next begun admitted sound (.restOfSequence executed) leads trivial
    | returned value => exact contract.judged_pure held

/-- Carrying out a call of a function conforms. -/
theorem conforms_callClosure
    {closure : Closure}
    {arguments : List Value}
    (begun : contract.BegunConform (.callClosure fuel closure arguments))
    (admitted : contract.admits (.callClosure fuel closure arguments) machine)
    (sound : contract.sound machine)
    (passes : ∀ value ∈ arguments, contract.holds machine.heap value) :
    contract.Conforms machine (.callClosure fuel closure arguments) := by
  refine contract.judged_bind (contract.judged_parameters closure passes) ?_
  intro scope entered isEntered leads _
  cases isEntered
  exact contract.judged_finishCall
    (conforms_begun begun admitted sound .body (.inr ⟨.body, leads⟩) trivial)

/-- Making an instance and setting it up conforms. -/
theorem conforms_instantiate
    {place : ClassRef}
    {initializer : Option Closure}
    {arguments : List Value}
    (begun : contract.BegunConform (.call fuel arguments (.ofClass place initializer)))
    (admitted : contract.admits (.call fuel arguments (.ofClass place initializer)) machine)
    (sound : contract.sound machine)
    (passes : ∀ value ∈ arguments, contract.holds machine.heap value) :
    contract.Conforms machine (.call fuel arguments (.ofClass place initializer)) := by
  refine contract.judged_bind (contract.judged_instance admitted) ?_
  intro receiver made isMade leads receiverHeld
  cases isMade
  cases initializer with
  | none => exact contract.judged_pure receiverHeld
  | some method =>
    refine contract.judged_bind (contract.judged_receiver method receiverHeld) ?_
    intro closure bound isBound further _
    cases isBound
    have reached := contract.leads_trans leads further
    refine contract.judged_bind
      (conforms_begun begun admitted sound .setUp (.inr ⟨.setUp, reached⟩) ?_) ?_
    · exact fun value member => contract.holds_later reached (passes value member)
    · intro _ after _ last _
      exact contract.judged_pure
        (contract.holds_later last (contract.holds_later further receiverHeld))

/-- Carrying out a call conforms. -/
theorem conforms_call
    {callable : Callable}
    {arguments : List Value}
    (begun : contract.BegunConform (.call fuel arguments callable))
    (admitted : contract.admits (.call fuel arguments callable) machine)
    (sound : contract.sound machine)
    (passes : ∀ value ∈ arguments, contract.holds machine.heap value) :
    contract.Conforms machine (.call fuel arguments callable) := by
  cases callable with
  | native function => exact contract.judged_native admitted passes
  | closure function =>
    have called : contract.Conforms machine (.callClosure fuel function arguments) :=
      conforms_first begun admitted sound .callFunction passes
    exact called
  | ofClass place initializer => exact conforms_instantiate begun admitted sound passes

/-- Calling a value conforms. -/
theorem conforms_invoke
    {callee : Value}
    {paren : Token}
    {arguments : List Value}
    (begun : contract.BegunConform (.invoke fuel callee paren arguments))
    (admitted : contract.admits (.invoke fuel callee paren arguments) machine)
    (sound : contract.sound machine)
    (passes : ∀ value ∈ arguments, contract.holds machine.heap value) :
    contract.Conforms machine (.invoke fuel callee paren arguments) := by
  refine contract.judged_get (fun _ => rfl) ?_
  split
  · exact contract.judged_fail _ rfl
  · rename_i callable found
    split
    · exact contract.judged_fail _ rfl
    · rename_i matching
      split
      · exact contract.judged_fail _ rfl
      · rename_i room
        have begins : Begins (.invoke fuel callee paren arguments) machine _ _ :=
          .call found (Decidable.not_not.mp matching) (Nat.lt_of_not_le room)
        exact contract.judged_asCall (conforms_begun begun admitted sound begins
          (.inr ⟨.call, contract.leads_refl sound⟩) passes)

/-- Evaluating an expression conforms. -/
theorem conforms_evaluate
    {value : Expr}
    (begun : contract.BegunConform (.evaluate (fuel + 1) value))
    (admitted : contract.admits (.evaluate (fuel + 1) value) machine)
    (sound : contract.sound machine) :
    contract.Conforms machine (.evaluate (fuel + 1) value) := by
  -- The tasks begun at once are carried out on this machine, the others on a later one.
  have first {inner} (begins : Begins (.evaluate (fuel + 1) value) machine inner machine) :=
    conforms_first begun admitted sound begins
  have next {inner middle} (begins : Begins (.evaluate (fuel + 1) value) machine inner middle) :=
    conforms_next begun admitted sound begins
  cases value with
  | literal value => cases value <;> exact contract.judged_plain rfl
  | grouping inner =>
    have evaluated : contract.Conforms machine (.evaluate fuel inner) := first .grouping trivial
    exact evaluated
  | unary operator right =>
    exact contract.judged_bind (first .unary trivial) fun _ _ _ _ _ =>
      contract.judged_applyUnary operator _
  | binary left operator right =>
    refine contract.judged_bind (first .binaryLeft trivial) fun _ middle evaluated leads _ => ?_
    exact contract.judged_bind (next (.binaryRight evaluated) leads trivial) fun _ _ _ _ _ =>
      contract.judged_applyBinary operator _ _
  | logical left operator right =>
    refine contract.judged_bind (first .logicalLeft trivial) fun _ middle evaluated leads held => ?_
    split
    · exact contract.judged_pure held
    · rename_i undecided
      rw [Bool.not_eq_true] at undecided
      exact next (.logicalRight evaluated undecided) leads trivial
  | read target => exact contract.judged_read target
  | assign target value =>
    refine contract.judged_bind (first .assigned trivial) fun _ middle evaluated leads held => ?_
    refine contract.judged_of_sound fun soundThere => ?_
    have stores :=
      contract.admits_begun admitted (.store evaluated) sound soundThere (.inl leads)
    exact contract.judged_bind (contract.judged_assign stores held) fun _ _ _ further _ =>
      contract.judged_pure (contract.holds_later further held)
  | call callee paren arguments =>
    refine contract.judged_bind (first .callee trivial) fun _ middle evaluated leads _ => ?_
    refine contract.judged_bind (next (.arguments evaluated) leads trivial) ?_
    intro values after argued further held
    exact next (.invoke evaluated argued) (contract.leads_trans leads further) held
  | property object name =>
    refine contract.judged_bind (first .object trivial) fun receiver middle evaluated leads _ => ?_
    cases receiver with
    | object receiver => exact contract.judged_property admitted evaluated
    | _ => exact contract.judged_fail _ rfl
  | setProperty object name value =>
    refine contract.judged_bind (first .changedObject trivial) ?_
    intro receiver middle evaluated leads _
    cases receiver with
    | object receiver =>
      refine contract.judged_bind (next (.fieldValue evaluated) leads trivial) ?_
      intro result after _ _ held
      exact contract.judged_bind (contract.judged_setField receiver name.lexeme held)
        fun _ _ _ further _ => contract.judged_pure (contract.holds_later further held)
    | _ => exact contract.judged_fail _ rfl
  | self keyword => exact contract.judged_read keyword
  | inherited keyword method => exact contract.judged_inherited admitted

/-- Executing a statement conforms. -/
theorem conforms_execute
    {step : Stmt}
    (begun : contract.BegunConform (.execute (fuel + 1) step))
    (admitted : contract.admits (.execute (fuel + 1) step) machine)
    (sound : contract.sound machine) :
    contract.Conforms machine (.execute (fuel + 1) step) := by
  have first {inner} (begins : Begins (.execute (fuel + 1) step) machine inner machine) :=
    conforms_first begun admitted sound begins
  have next {inner middle} (begins : Begins (.execute (fuel + 1) step) machine inner middle) :=
    conforms_next begun admitted sound begins
  cases step with
  | expression value =>
    exact contract.judged_bind (first .expression trivial) fun _ _ _ _ _ => contract.judged_normal
  | print value =>
    refine contract.judged_bind (first .print trivial) fun result _ _ _ _ => ?_
    exact contract.judged_bind (contract.judged_print result) fun _ _ _ _ _ =>
      contract.judged_normal
  | declare name initializer =>
    have initialized : contract.judged (Eval.optional (Eval.evaluate fuel) initializer) machine
        contract.holds := by
      cases initializer with
      | none => exact contract.judged_plain rfl
      | some value => exact first .initializer trivial
    refine contract.judged_bind initialized fun _ _ _ leads held => ?_
    exact contract.judged_bind (contract.judged_declare admitted leads held) fun _ _ _ _ _ =>
      contract.judged_normal
  | block body =>
    refine contract.judged_get (fun _ => rfl) (contract.judged_bind contract.judged_block ?_)
    intro scope entered isEntered leads _
    cases isEntered
    exact contract.judged_within
      (conforms_begun begun admitted sound .block (.inr ⟨.block, leads⟩) trivial)
  | conditional condition thenBranch elseBranch =>
    refine contract.judged_bind (first .condition trivial) fun tested middle evaluated leads _ => ?_
    split
    · rename_i holds
      exact next (.thenBranch evaluated holds) leads trivial
    · rename_i fails
      rw [Bool.not_eq_true] at fails
      cases elseBranch with
      | none => exact contract.judged_normal
      | some branch => exact next (.elseBranch evaluated fails) leads trivial
  | loop condition body =>
    have repeated : contract.Conforms machine (.repeatWhile fuel condition body) :=
      first .loop trivial
    exact repeated
  | function declaration =>
    exact contract.judged_bind (contract.judged_function admitted) fun _ _ _ _ _ =>
      contract.judged_normal
  | returns keyword value =>
    have returned : contract.judged (Eval.optional (Eval.evaluate fuel) value) machine
        contract.holds := by
      cases value with
      | none => exact contract.judged_plain rfl
      | some value => exact first .returned trivial
    exact contract.judged_bind returned fun _ _ _ _ held => contract.judged_pure held
  | classDecl name superclass functions =>
    exact contract.judged_bind (contract.judged_class admitted) fun _ _ _ _ _ =>
      contract.judged_normal

/-- Executing a loop conforms. -/
theorem conforms_repeatWhile
    {condition : Expr}
    {body : Stmt}
    (begun : contract.BegunConform (.repeatWhile (fuel + 1) condition body))
    (admitted : contract.admits (.repeatWhile (fuel + 1) condition body) machine)
    (sound : contract.sound machine) :
    contract.Conforms machine (.repeatWhile (fuel + 1) condition body) := by
  refine contract.judged_bind (conforms_first begun admitted sound .loopCondition trivial) ?_
  intro tested middle evaluated leads _
  split
  · rename_i holds
    refine contract.judged_bind
      (conforms_next begun admitted sound (.loopBody evaluated holds) leads trivial) ?_
    intro flow after executed further held
    cases flow with
    | normal =>
      exact conforms_next begun admitted sound (.loopAgain evaluated holds executed)
        (contract.leads_trans leads further) trivial
    | returned value => exact contract.judged_pure held
  · exact contract.judged_normal

/-- A task conforms if those do that it begins. -/
theorem conforms_of_begun
    {task : Task}
    (begun : contract.BegunConform task)
    (admitted : contract.admits task machine)
    (sound : contract.sound machine)
    (passes : task.Passes (contract.holds machine.heap)) :
    contract.Conforms machine task := by
  cases task with
  | evaluate fuel value =>
    cases fuel with
    | zero => cases value <;> exact contract.judged_spent
    | succ fuel => exact conforms_evaluate begun admitted sound
  | each fuel values => exact conforms_each begun admitted sound
  | store target value => trivial
  | execute fuel step =>
    cases fuel with
    | zero => cases step <;> exact contract.judged_spent
    | succ fuel => exact conforms_execute begun admitted sound
  | sequence fuel steps => exact conforms_sequence begun admitted sound
  | repeatWhile fuel condition body =>
    cases fuel with
    | zero => exact contract.judged_spent
    | succ fuel => exact conforms_repeatWhile begun admitted sound
  | superclass name reference => trivial
  | invoke fuel callee paren arguments => exact conforms_invoke begun admitted sound passes
  | call fuel arguments callable => exact conforms_call begun admitted sound passes
  | callClosure fuel closure arguments => exact conforms_callClosure begun admitted sound passes

variable (contract)

/-- Every task that may be begun conforms to its contract.  The induction is on how much
there may be left of the task to do. -/
theorem conforms
    (task : Task)
    (machine : Machine)
    (admitted : contract.admits task machine)
    (passes : task.Passes (contract.holds machine.heap)) :
    contract.Conforms machine task := by
  refine contract.conforms_of_sound fun sound =>
    conforms_of_begun (fun {_ middle inner} begins innerAdmitted innerPasses => ?_)
      admitted sound passes
  exact conforms inner middle innerAdmitted innerPasses
termination_by task.weight
decreasing_by exact begins.weight_lt

/-- A statement at the top level is judged if its task may be begun. -/
theorem judged_executeTopLevel
    {step : Stmt}
    (echo : Bool)
    (admitted : contract.admits (Session.topLevelTask fuel step) machine) :
    contract.judged (Session.executeTopLevel fuel echo step) machine fun _ _ => True := by
  cases step with
  | expression value =>
    refine contract.judged_bind (contract.conforms _ machine admitted trivial) ?_
    intro result _ _ _ _
    split
    · exact contract.judged_print result
    · exact contract.judged_pure trivial
  | _ =>
    exact contract.judged_bind (contract.conforms _ machine admitted trivial)
      fun _ _ _ _ _ => contract.judged_pure trivial

end Contract

end TreeWalk
