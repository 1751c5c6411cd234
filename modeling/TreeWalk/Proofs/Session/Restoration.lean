import TreeWalk.Proofs.Evaluation.FaultLines
import TreeWalk.Proofs.Evaluation.Restoration
import TreeWalk.Proofs.Session.History

/-!
# Calls in progress

The machine counts the calls in progress.  While a task is carried out, the count
is what it was at the start plus one for every call that has been begun since and
has not ended, and it stays within the limit: a call that would exceed the limit
is not begun.  After a run no call is in progress and the current scope is that of
the globals.
-/

namespace TreeWalk

/-- Whether a task is that of carrying out a call. -/
def Task.isActivation : Task -> Bool
  | .call _ _ _ => true
  | _ => false

/-- Carrying out a task has got to a machine on which an inner task has been begun, and
the tasks around it, the last one first, have been begun and have not ended. -/
inductive Task.InProgress (task : Task) (machine : Machine) :
    Task -> List Task -> Machine -> Prop
  | start : InProgress task machine task [] machine
  | further
      {outer inner : Task}
      {around : List Task}
      {middle final : Machine}
      (before : InProgress task machine outer around middle)
      (begins : Begins outer middle inner final) :
      InProgress task machine inner (outer :: around) final

/-- How many of some tasks are calls. -/
def activations (tasks : List Task) : Nat :=
  tasks.countP Task.isActivation

/-- Beginning a call is what raises the number of calls in progress. -/
theorem Begins.callDepth
    {outer inner : Task}
    {middle final : Machine}
    (begins : Begins outer middle inner final) :
    final.callDepth = middle.callDepth + activations [inner] := by
  have progress := begins.getsTo_or_enters
  cases begins with
  | block => rfl
  | call => rfl
  | setUp => rfl
  | body => rfl
  | _ =>
    rcases progress with getsTo | enters
    · exact getsTo.resumes.callDepth
    · cases enters

/-- Beginning a task keeps the number of calls in progress within the limit. -/
theorem Begins.shallow
    {outer inner : Task}
    {middle final : Machine}
    (begins : Begins outer middle inner final)
    (shallow : middle.callDepth ≤ maxCallDepth) :
    final.callDepth ≤ maxCallDepth := by
  have counted := begins.callDepth
  cases begins with
  | call found matching room => exact room
  | _ =>
    rw [counted]
    exact shallow

section Progress

variable
  {task inner : Task}
  {around : List Task}
  {machine final : Machine}

/-- The calls begun since the start are counted on top of those in progress then. -/
theorem Task.InProgress.callDepth (progress : task.InProgress machine inner around final) :
    final.callDepth + activations [task] = machine.callDepth + activations (inner :: around) := by
  induction progress with
  | start => rfl
  | @further outer inner around middle final before begins inductionHypothesis =>
    have begun := begins.callDepth
    have counted : activations (inner :: outer :: around) =
        activations (outer :: around) + activations [inner] := by
      simp only [activations, List.countP_cons, List.countP_nil]
      omega
    omega

/-- The number of calls in progress stays within the limit. -/
theorem Task.InProgress.shallow
    (progress : task.InProgress machine inner around final)
    (shallow : machine.callDepth ≤ maxCallDepth) :
    final.callDepth ≤ maxCallDepth := by
  induction progress with
  | start => exact shallow
  | further before begins inductionHypothesis => exact begins.shallow inductionHypothesis

/-- A task in progress is one that is visited. -/
theorem Task.InProgress.visits (progress : task.InProgress machine inner around final) :
    task.Visits machine inner final := by
  induction progress with
  | start => exact .start
  | further before begins inductionHypothesis => exact .further inductionHypothesis begins

/-- A task that is visited is in progress, inside of some others. -/
theorem Task.Visits.exists_inProgress (visits : task.Visits machine inner final) :
    ∃ around, task.InProgress machine inner around final := by
  induction visits with
  | start => exact ⟨[], .start⟩
  | further before begins inductionHypothesis =>
    obtain ⟨around, progress⟩ := inductionHypothesis
    exact ⟨_, progress.further begins⟩

end Progress

section Overflow

variable
  {machine : Machine}
  {callee : Value}
  {paren : Token}
  {arguments : List Value}
  {callable : Callable}

/-- A value that can be called with these arguments is called, unless as many
calls are in progress as may be. -/
theorem invoke_of_matching
    (found : machine.heap.callable? callee = some callable)
    (matching : arguments.length = callable.arity)
    (execute : Stmt -> Eval Flow) :
    Eval.invoke execute callee paren arguments machine =
      if maxCallDepth ≤ machine.callDepth then
        .error (.failure paren.line .stackOverflow) machine
      else
        Eval.asCall paren.line (Eval.call execute arguments callable) machine := by
  rw [Eval.invoke_apply, found, Eval.invokeAt, if_neg (not_not_intro matching)]
  split <;> rfl

/-- Below the limit a call is carried out as one more call in progress, and however it
ends, the number of calls in progress is that of before. -/
theorem invoke_of_room
    (fuel : Nat)
    (found : machine.heap.callable? callee = some callable)
    (matching : arguments.length = callable.arity)
    (room : machine.callDepth < maxCallDepth) :
    Eval.invoke (Eval.execute fuel) callee paren arguments machine =
      match Eval.call (Eval.execute fuel) arguments callable
        { machine with callDepth := machine.callDepth + 1 } with
      | .ok value after => .ok value { after with callDepth := machine.callDepth }
      | .error interruption after =>
        .error (interruption.orLine paren.line) { after with callDepth := machine.callDepth } := by
  have restored := (growthInvariant.judged_call trivial fun _ _ => trivial :
    growthInvariant.Judged (Eval.call (Eval.execute fuel) arguments callable)
      { machine with callDepth := machine.callDepth + 1 } _).restored
  unfold Eval.left at restored
  rw [invoke_of_matching found matching, if_neg (Nat.not_le_of_lt room)]
  cases ended : Eval.call (Eval.execute fuel) arguments callable
      { machine with callDepth := machine.callDepth + 1 } with
  | ok value after =>
    rw [ended] at restored
    rw [Eval.asCall_eq_wrapped, Eval.wrapped_of_ok ended]
    simp [restored.callDepth]
  | error interruption after =>
    rw [ended] at restored
    rw [Eval.asCall_of_error ended]
    simp [restored.callDepth]

/-- A counted call leaves the heap that its inside leaves. -/
theorem Eval.heap_left_asCall
    {α : Type}
    (line : Nat)
    (body : Eval α)
    (machine : Machine) :
    ((Eval.asCall line body).left machine).heap =
      (body.left { machine with callDepth := machine.callDepth + 1 }).heap := by
  rw [asCall_eq_wrapped, left_wrapped]

/-- Calling a function makes a scope. -/
theorem population_callClosure
    (fuel : Nat)
    (closure : Closure)
    (arguments : List Value)
    (machine : Machine) :
    machine.heap.population <
      ((Eval.callClosure (Eval.execute fuel) closure arguments).left machine).heap.population := by
  have made : Eval.onHeap (·.newScope (some closure.scope)
      (Eval.bindParameters closure.declaration.parameters arguments)) machine =
      .ok (machine.heap.newScope (some closure.scope)
        (Eval.bindParameters closure.declaration.parameters arguments)).1
      { machine with
        heap := (machine.heap.newScope (some closure.scope)
          (Eval.bindParameters closure.declaration.parameters arguments)).2 } := rfl
  rw [Eval.callClosure_eq, Eval.left_bind_of_ok made]
  refine Nat.lt_of_lt_of_le ?_ (growthInvariant.judged_finishCall trivial).restored.population
  rw [Heap.population_newScope]
  exact Nat.lt_succ_self _

/-- Calling a class makes an instance. -/
theorem population_instantiate
    (fuel : Nat)
    (place : ClassRef)
    (initializer : Option Closure)
    (arguments : List Value)
    (machine : Machine) :
    machine.heap.population <
      ((Eval.instantiate (Eval.execute fuel) place initializer arguments).left
        machine).heap.population := by
  have made : Eval.onHeap (·.newInstance place) machine =
      .ok (machine.heap.newInstance place).1
        { machine with heap := (machine.heap.newInstance place).2 } := rfl
  have setUp : ∀ receiver machine,
      growthInvariant.Judged (Eval.setUp (Eval.execute fuel) initializer arguments receiver)
        machine fun _ _ => True := by
    intro receiver machine
    cases initializer with
    | none => exact Regime.judged_pure trivial
    | some method =>
      refine (growthInvariant.judged_bindMethod method trivial).bind fun _ _ _ _ _ _ => ?_
      exact (growthInvariant.judged_callClosure trivial fun _ _ => trivial).bind
        fun _ _ _ _ _ _ => Regime.judged_pure trivial
  rw [Eval.instantiate_eq, Eval.left_bind_of_ok made]
  refine Nat.lt_of_lt_of_le ?_ (setUp _ _).restored.population
  rw [Heap.population_newInstance]
  exact Nat.lt_succ_self _

/-- A call that has been begun never leaves the machine as it was together with
the failure of one that was not: it makes something, or fails for another
reason. -/
theorem asCall_ne_overflow
    (fuel line : Nat)
    (arguments : List Value)
    (callable : Callable)
    (machine : Machine) :
    Eval.asCall line (Eval.call (Eval.execute fuel) arguments callable) machine ≠
      .error (.failure line .stackOverflow) machine := by
  intro overflows
  have unchanged : ((Eval.asCall line (Eval.call (Eval.execute fuel) arguments callable)).left
      machine).heap = machine.heap := by
    rw [Eval.left, overflows]
  rw [Eval.heap_left_asCall] at unchanged
  cases callable with
  | native function =>
    rw [Eval.asCall_eq_wrapped] at overflows
    obtain ⟨own, left, failed, same, -⟩ := Eval.wrapped_eq_error overflows
    obtain ⟨text, -, rfl⟩ := Eval.callNative_eq_error failed
    cases same
  | closure function =>
    have grown := population_callClosure fuel function arguments
      { machine with callDepth := machine.callDepth + 1 }
    exact Nat.lt_irrefl _ (Nat.lt_of_lt_of_eq grown (congrArg Heap.population unchanged))
  | ofClass place initializer =>
    have grown := population_instantiate fuel place initializer arguments
      { machine with callDepth := machine.callDepth + 1 }
    exact Nat.lt_irrefl _ (Nat.lt_of_lt_of_eq grown (congrArg Heap.population unchanged))

/-- A call fails before it is begun exactly when as many calls are in progress as
may be. -/
theorem invoke_overflows_iff
    (fuel : Nat)
    (found : machine.heap.callable? callee = some callable)
    (matching : arguments.length = callable.arity) :
    Eval.invoke (Eval.execute fuel) callee paren arguments machine =
        .error (.failure paren.line .stackOverflow) machine ↔
      maxCallDepth ≤ machine.callDepth := by
  rw [invoke_of_matching found matching]
  constructor
  · intro overflows
    refine Decidable.byContradiction fun room => ?_
    rw [if_neg room] at overflows
    exact asCall_ne_overflow fuel paren.line arguments callable machine overflows
  · intro full
    rw [if_pos full]

end Overflow

namespace Session

/-- A program leaves scope and depth as it found them, however it ends. -/
theorem restored_interpret
    (fuel : Nat)
    (echo : Bool)
    (program : List Stmt)
    (executed : Nat)
    (machine : Machine) :
    machine.Restored (interpret fuel echo program executed machine).2.2 := by
  induction program generalizing executed machine with
  | nil => exact .refl machine
  | cons first rest inductionHypothesis =>
    have restored := (growthInvariant.judged_executeTopLevel echo trivial :
      growthInvariant.Judged (executeTopLevel fuel echo first) machine _).restored
    unfold Eval.left at restored
    rw [interpret]
    cases ended : executeTopLevel fuel echo first machine with
    | error interruption after =>
      rw [ended] at restored
      exact restored
    | ok result after =>
      rw [ended] at restored
      exact restored.trans (inductionHypothesis (executed + 1) after)

/-- A run restores the machine of its session. -/
theorem restored_run
    {session after : Session}
    {fuel : Nat}
    {source : String}
    {result : RunResult}
    (runs : session.run fuel source = some (result, after)) :
    after.machine.scope = session.machine.scope ∧
      after.machine.globals = session.machine.globals ∧
      after.machine.callDepth = session.machine.callDepth := by
  by_cases accepts : session.staticErrors source = []
  · have restored := restored_interpret fuel session.echo (session.program source) 0
      (session.ready source)
    rw [eq_of_run accepts runs]
    exact ⟨restored.scope, restored.globals, restored.callDepth⟩
  · rw [run_of_rejected accepts] at runs
    cases runs
    exact ⟨rfl, rfl, rfl⟩

/-- Between two runs the current scope is that of the globals, and no call is in
progress. -/
theorem History.atRest
    {session : Session}
    {roots : List Site}
    (past : History session roots) :
    session.machine.scope = session.machine.globals ∧ session.machine.callDepth = 0 := by
  induction past with
  | fresh clock output => exact ⟨rfl, rfl⟩
  | echo past echo inductionHypothesis => exact inductionHypothesis
  | accepted past accepts runs inductionHypothesis =>
    obtain ⟨scope, globals, callDepth⟩ := restored_run runs
    rw [scope, globals, callDepth]
    exact inductionHypothesis
  | rejected past rejects runs inductionHypothesis =>
    obtain ⟨scope, globals, callDepth⟩ := restored_run runs
    rw [scope, globals, callDepth]
    exact inductionHypothesis

end Session

/-- However an evaluation ends, the current scope and the number of calls in
progress are those of before.  As long as it lasts, the calls that it has begun and
that have not ended are counted on top, and the count stays within the limit.

The tasks in progress are those that the evaluation gets to: what interrupts the
innermost one comes out of the evaluation, and whatever interrupts the evaluation is a
failure of an innermost one.

A value that is called with matching arguments overflows the stack, before its call
is begun, exactly when the limit has been reached.  Below the limit the call is
carried out with one more call in progress.  Between the runs of a session no call is
in progress. -/
theorem evaluation_restores_the_machine
    (machine : Machine)
    (shallow : machine.callDepth ≤ maxCallDepth) :
    (∀ fuel value, machine.Restored ((Eval.evaluate fuel value).left machine)) ∧
      (∀ fuel step, machine.Restored ((Eval.execute fuel step).left machine)) ∧
      (∀ fuel steps scope, machine.Restored ((Eval.executeBlock fuel steps scope).left machine)) ∧
      (∀ (scope : ScopeRef) (task inner : Task) (around : List Task) (final : Machine),
        task.isActivation = false ->
        task.InProgress { machine with scope := scope } inner around final ->
          final.callDepth = machine.callDepth + activations (inner :: around) ∧
            final.callDepth ≤ maxCallDepth ∧
            ∀ (interruption : Interruption) (left : Machine),
              inner.Fails final interruption left -> interruption.IsSettled ->
                ∃ after, task.Fails { machine with scope := scope } interruption after ∧
                  left.SameButPlace after) ∧
      (∀ (scope : ScopeRef) (task : Task) (interruption : Interruption) (after : Machine),
        task.Fails { machine with scope := scope } interruption after ->
          ∃ inner around final cause left,
            task.InProgress { machine with scope := scope } inner around final ∧
              inner.Fails final cause left ∧ inner.FailsItself final cause left) ∧
      (∀ (fuel : Nat) (callee : Value) (paren : Token) (arguments : List Value)
        (callable : Callable), machine.heap.callable? callee = some callable ->
        arguments.length = callable.arity ->
          (Eval.invoke (Eval.execute fuel) callee paren arguments machine =
              .error (.failure paren.line .stackOverflow) machine ↔
            machine.callDepth = maxCallDepth) ∧
          (machine.callDepth < maxCallDepth ->
            Eval.invoke (Eval.execute fuel) callee paren arguments machine =
              match Eval.call (Eval.execute fuel) arguments callable
                { machine with callDepth := machine.callDepth + 1 } with
              | .ok value after => .ok value { after with callDepth := machine.callDepth }
              | .error interruption after =>
                .error (interruption.orLine paren.line)
                  { after with callDepth := machine.callDepth })) ∧
      RuntimeFault.stackOverflow.message = "Stack overflow." ∧
      ∀ (session : Session) (roots : List Site), session.History roots ->
        session.machine.scope = session.machine.globals ∧ session.machine.callDepth = 0 := by
  refine ⟨fun fuel value => restored_evaluate fuel value machine,
    fun fuel step => restored_execute fuel step machine,
    fun fuel steps scope => restored_executeBlock fuel steps scope machine, ?_, ?_, ?_, rfl,
    fun session roots past => past.atRest⟩
  · intro scope task inner around final notCall progress
    have counted := progress.callDepth
    have uncounted : activations [task] = 0 := by
      simp [activations, notCall]
    rw [uncounted] at counted
    refine ⟨counted, progress.shallow shallow, fun interruption left fails settled => ?_⟩
    exact progress.visits.fails fails settled
  · intro scope task interruption after fails
    obtain ⟨inner, final, cause, left, visits, innerFails, itself⟩ := fails.exists_failsItself
    obtain ⟨around, progress⟩ := visits.exists_inProgress
    exact ⟨inner, around, final, cause, left, progress, innerFails, itself⟩
  · intro fuel callee paren arguments callable found matching
    refine ⟨?_, invoke_of_room fuel found matching⟩
    rw [invoke_overflows_iff fuel found matching]
    exact ⟨fun full => Nat.le_antisymm shallow full, fun full => Nat.le_of_eq full.symm⟩

/-- A machine on which as many calls are in progress as may be. -/
def exhausted : Machine :=
  { Machine.fresh { reading := fun _ => 0 } {} with callDepth := maxCallDepth }

/-- On an exhausted machine reading the clock in a block overflows the stack, and
the machine comes back from the block. -/
theorem exhausted_restored :
    exhausted.callDepth ≤ maxCallDepth ∧
      Eval.invoke (Eval.execute 2) (.native ⟨0⟩) (.ofName "" 1) [] exhausted =
        .error (.failure 1 .stackOverflow) exhausted ∧
      exhausted.Restored ((Eval.executeBlock 4
        [.expression (.call (.read ⟨0, .ofName "clock" 1⟩) (.ofName "" 1) [])] ⟨0⟩).left
          exhausted) := by
  obtain ⟨-, -, blocks, -, -, calls, -, -⟩ :=
    evaluation_restores_the_machine exhausted (Nat.le_refl _)
  refine ⟨Nat.le_refl _, ?_, blocks _ _ _⟩
  exact (calls 2 (.native ⟨0⟩) (.ofName "" 1) [] (.native .clock) rfl rfl).1.mpr rfl

end TreeWalk
