import TreeWalk.Proofs.Evaluation.Invariants
import TreeWalk.Proofs.Heap.Chain

/-!
# Evaluation restores the machine

However an evaluation ends, the current scope and the number of calls in progress
are those of before, and nothing has been removed from the heap.  This holds on
every machine: it needs neither name resolution nor a limit on the depth of calls.
-/

namespace TreeWalk

/-- How many scopes and instances there are. -/
def Heap.population (heap : Heap) : Nat :=
  heap.scopes.size + heap.instances.size

/-- A machine is back where it was: in the same scope, with as many calls in
progress, and with everything that was on the heap. -/
structure Machine.Restored (before after : Machine) : Prop where
  scope : after.scope = before.scope
  globals : after.globals = before.globals
  callDepth : after.callDepth = before.callDepth
  population : before.heap.population ≤ after.heap.population

theorem Machine.Restored.refl (machine : Machine) : machine.Restored machine :=
  ⟨rfl, rfl, rfl, Nat.le_refl _⟩

theorem Machine.Restored.trans
    {before middle after : Machine}
    (one : before.Restored middle)
    (other : middle.Restored after) :
    before.Restored after :=
  ⟨other.scope.trans one.scope, other.globals.trans one.globals,
    other.callDepth.trans one.callDepth, Nat.le_trans one.population other.population⟩

/-- A heap has grown, by scopes and by instances. -/
structure Heap.Grown (before after : Heap) : Prop where
  scopes : before.Grows after
  instances : before.instances.size ≤ after.instances.size

namespace Heap.Grown

theorem refl (heap : Heap) : heap.Grown heap :=
  ⟨.refl heap, Nat.le_refl _⟩

theorem trans
    {before middle after : Heap}
    (one : before.Grown middle)
    (other : middle.Grown after) :
    before.Grown after :=
  ⟨one.scopes.trans other.scopes, Nat.le_trans one.instances other.instances⟩

/-- A grown heap has at least as many scopes and instances. -/
theorem population
    {before after : Heap}
    (grown : before.Grown after) :
    before.population ≤ after.population :=
  Nat.add_le_add grown.scopes.size grown.instances

end Heap.Grown

section HeapSteps

variable (heap : Heap)

/-- Binding a name keeps all that is on the heap. -/
theorem Heap.grown_define (place : ScopeRef) (name : String) (value : Value) :
    heap.Grown (heap.define place name value) :=
  ⟨grows_define heap place name value, Nat.le_refl _⟩

/-- A new scope keeps all that is on the heap. -/
theorem Heap.grown_newScope (enclosing : Option ScopeRef) (bindings : Bindings Value) :
    heap.Grown (heap.newScope enclosing bindings).2 :=
  ⟨grows_newScope heap enclosing bindings, Nat.le_refl _⟩

theorem Heap.grown_newInstance (ofClass : ClassRef) :
    heap.Grown (heap.newInstance ofClass).2 := by
  refine ⟨.of_scopes_eq rfl, ?_⟩
  simp [newInstance]

theorem Heap.grown_setField (place : InstanceRef) (name : String) (value : Value) :
    heap.Grown (heap.setField place name value) := by
  refine ⟨.of_scopes_eq rfl, ?_⟩
  simp [setField]

theorem Heap.grown_newFunction (closure : Closure) :
    heap.Grown (heap.newFunction closure).2 :=
  ⟨.of_scopes_eq rfl, Nat.le_refl _⟩

theorem Heap.grown_newClass (made : Class) :
    heap.Grown (heap.newClass made).2 :=
  ⟨.of_scopes_eq rfl, Nat.le_refl _⟩

/-- A new scope counts one. -/
theorem Heap.population_newScope (enclosing : Option ScopeRef) (bindings : Bindings Value) :
    (heap.newScope enclosing bindings).2.population = heap.population + 1 := by
  simp only [population, newScope, Array.size_push]
  omega

/-- A new instance counts one. -/
theorem Heap.population_newInstance (ofClass : ClassRef) :
    (heap.newInstance ofClass).2.population = heap.population + 1 := by
  simp only [population, newInstance, Array.size_push]
  omega

end HeapSteps

/-- On any machine, evaluation makes the heap grow. -/
def growthInvariant : Invariant where
  sound _ := True
  leads := Heap.Grown
  admits _ _ := True
  sound_of_eq _ _ _ _ _ := trivial
  leads_refl := .refl
  leads_trans := .trans
  admits_begun _ _ _ _ _ _ := trivial
  allows_fetched _ _ _ :=
    ⟨(Heap.grown_newScope _ _ _).trans (Heap.grown_newFunction _ _), trivial⟩
  allows_stored _ _ _ _ := ⟨Heap.grown_define _ _ _ _, trivial⟩
  allows_field _ _ _ _ := ⟨Heap.grown_setField _ _ _ _, trivial⟩
  allows_declared _ _ _ _ _ := ⟨Heap.grown_define _ _ _ _, trivial⟩
  allows_function _ _ :=
    ⟨(Heap.grown_newFunction _ _).trans (Heap.grown_define _ _ _ _), trivial⟩
  allows_className _ _ _ _ _ _ := ⟨Heap.grown_define _ _ _ _, trivial⟩
  allows_superclass _ _ _ _ := ⟨Heap.grown_newScope _ _ _, trivial⟩
  allows_plainClass _ _ _ := ⟨Heap.grown_newClass _ _, trivial⟩
  allows_subclass _ _ _ _ := ⟨Heap.grown_newClass _ _, trivial⟩
  allows_block _ _ := ⟨Heap.grown_newScope _ _ _, trivial⟩
  allows_parameters _ _ _ := ⟨Heap.grown_newScope _ _ _, trivial⟩
  allows_instance _ _ := ⟨Heap.grown_newInstance _ _, trivial⟩
  allows_receiver _ _ _ := ⟨Heap.grown_newScope _ _ _, trivial⟩

section Restored

variable {α : Type} {machine after : Machine}

/-- An evaluation that makes the heap grow restores the machine. -/
theorem Regime.Judged.restored
    {evaluation : Eval α}
    {stated : Heap -> α -> Prop}
    (judged : growthInvariant.Judged evaluation machine stated) :
    machine.Restored (evaluation.left machine) :=
  have ⟨resumes, grown, _⟩ := judged.left trivial
  ⟨resumes.scope, resumes.globals, resumes.callDepth, grown.population⟩

/-- An expression leaves scope and depth as it found them, however it ends. -/
theorem restored_evaluate (fuel : Nat) (value : Expr) (machine : Machine) :
    machine.Restored ((Eval.evaluate fuel value).left machine) :=
  (growthInvariant.judged_evaluate trivial).restored

/-- A statement leaves scope and depth as it found them, however it ends. -/
theorem restored_execute (fuel : Nat) (step : Stmt) (machine : Machine) :
    machine.Restored ((Eval.execute fuel step).left machine) :=
  (growthInvariant.judged_execute trivial).restored

/-- A block leaves scope and depth as it found them, however it ends. -/
theorem restored_executeBlock
    (fuel : Nat)
    (steps : List Stmt)
    (scope : ScopeRef)
    (machine : Machine) :
    machine.Restored ((Eval.executeBlock fuel steps scope).left machine) :=
  (Regime.judged_within (growthInvariant.judged_sequence trivial)).restored

/-- Every machine that a task gets to goes on where the task was begun. -/
theorem Task.GetsTo.resumes
    {task : Task}
    (getsTo : task.GetsTo machine after) :
    machine.Resumes after :=
  (growthInvariant.getsTo getsTo trivial trivial).1

/-- The heap only grows while a task is under way. -/
theorem Task.GetsTo.grows
    {task : Task}
    (getsTo : task.GetsTo machine after) :
    machine.heap.Grows after.heap :=
  (growthInvariant.getsTo getsTo trivial trivial).2.1.scopes

/-- So does the machine behind a task that has been carried out. -/
theorem Task.Ends.resumes
    {task : Task}
    (ends : task.Ends machine after) :
    machine.Resumes after :=
  (growthInvariant.ends ends trivial trivial).1

/-- The heap has only grown when a task has ended. -/
theorem Task.Ends.grows
    {task : Task}
    (ends : task.Ends machine after) :
    machine.heap.Grows after.heap :=
  (growthInvariant.ends ends trivial trivial).2.1.scopes

end Restored

end TreeWalk
