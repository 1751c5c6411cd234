import TreeWalk.Proofs.Evaluation.Invariants
import TreeWalk.Proofs.Heap.Intact

/-!
# Evaluation keeps the heap intact

On a machine with an intact heap, evaluation leaves an intact heap however it ends,
takes nothing away from it, and comes to a value that refers to something there.  What
is called is there, and is called with as many arguments as it takes.  This holds on
every machine and needs no name resolution.
-/

namespace TreeWalk

/-- What is called is there, and is called with as many arguments as it takes. -/
def Task.Matched (heap : Heap) : Task -> Prop
  | .call _ arguments callable =>
    arguments.length = callable.arity ∧ ∃ callee, heap.callable? callee = some callable
  | .callClosure _ closure arguments => arguments.length = closure.arity
  | _ => True

/-- A task begins others with as many arguments as they take: the number is checked where
a value is called, and an initializer takes as many arguments as its class. -/
theorem Begins.matched
    {task inner : Task}
    {machine final : Machine}
    (begins : Begins task machine inner final)
    (matched : task.Matched machine.heap) :
    inner.Matched final.heap := by
  cases begins with
  | call found isMatching => exact ⟨isMatching, _, found⟩
  | callFunction => exact matched.1
  | setUp => exact matched.1
  | _ => trivial

section Heaps

variable {heap : Heap}

/-- A class that can be called is there. -/
theorem Heap.holds_of_callable?
    {callee : Value}
    {place : ClassRef}
    {initializer : Option Closure}
    (found : heap.callable? callee = some (.ofClass place initializer)) :
    heap.Holds (.classObject place) := by
  cases callee <;> simp only [callable?, Option.map_eq_some_iff, reduceCtorEq, and_false,
    exists_false] at found
  obtain ⟨ofClass, isClass, same⟩ := found
  cases same
  exact (Array.getElem?_eq_some_iff.mp isClass).1

/-- A native function that can be called is there. -/
theorem Heap.native?_of_callable?
    {callee : Value}
    {function : Native}
    (found : heap.callable? callee = some (.native function)) :
    ∃ place, heap.native? place = some function := by
  cases callee <;> simp only [callable?, Option.map_eq_some_iff, reduceCtorEq, and_false,
    exists_false] at found
  obtain ⟨native, isNative, same⟩ := found
  cases same
  exact ⟨_, isNative⟩

/-- The methods of a class body are filed under their own names. -/
theorem filedAs_methodTable (place : ScopeRef) (functions : List FunctionDecl) :
    (Eval.methodTable place functions).All Closure.FiledAs := by
  refine Bindings.All.foldl Bindings.all_empty (fun method : FunctionDecl => method.name.lexeme)
    (fun method => Closure.mk method place (method.name.lexeme = initializerName)) fun _ _ => ?_
  exact ⟨rfl, rfl⟩

/-- Parameters are bound to arguments. -/
theorem all_bindParameters
    {arguments : List Value}
    (parameters : List Token)
    (held : ∀ value ∈ arguments, heap.Holds value) :
    (Eval.bindParameters parameters arguments).All fun _ value => heap.Holds value := by
  refine Bindings.All.foldl Bindings.all_empty (fun entry : Token × Value => entry.1.lexeme)
    (fun entry => entry.2) fun entry member => ?_
  exact held entry.2 (List.of_mem_zip member).2

/-- A function that has been put on the heap is there. -/
theorem Heap.holds_newFunction (heap : Heap) (closure : Closure) :
    (heap.newFunction closure).2.Holds (.function (heap.newFunction closure).1) := by
  simp [Holds, newFunction]

/-- A class that has been put on the heap is there. -/
theorem Heap.holds_newClass (heap : Heap) (made : Class) :
    (heap.newClass made).2.Holds (.classObject (heap.newClass made).1) := by
  simp [Holds, newClass]

/-- An instance that has been put on the heap is there. -/
theorem Heap.holds_newInstance (heap : Heap) (place : ClassRef) :
    (heap.newInstance place).2.Holds (.object (heap.newInstance place).1) := by
  simp [Holds, newInstance]

/-- A value that refers to nothing is held by every heap. -/
theorem Heap.holds_of_isPlain
    {value : Value}
    (heap : Heap)
    (plain : value.isPlain = true) :
    heap.Holds value := by
  cases value <;> trivial

/-- A method is fetched for an instance that is there. -/
theorem Fetches.holds
    {task : Task}
    {start machine : Machine}
    {method : Closure}
    {receiver : InstanceRef}
    (fetches : Fetches task start method receiver machine)
    (intact : machine.heap.Intact) :
    machine.heap.Holds (.object receiver) := by
  cases fetches with
  | property _ isInstance _ _ => exact (Array.getElem?_eq_some_iff.mp isInstance).1
  | inherited _ _ isReceiver _ =>
    rw [← isReceiver]
    exact intact.getAt _ _ _
  | instantiation isMethod => exact Heap.holds_newInstance _ _

end Heaps

/-- Evaluation keeps every heap intact and takes nothing away from it. -/
def intactInvariant : Invariant where
  sound machine := machine.heap.Intact
  leads := Heap.Retains
  holds := Heap.Holds
  admits task machine := task.Matched machine.heap
  sound_of_eq intact heap _ _ _ := heap ▸ intact
  leads_refl := Heap.Retains.refl
  leads_trans := Heap.Retains.trans
  admits_begun matched begins _ _ _ _ := begins.matched matched
  holds_plain := Heap.holds_of_isPlain
  holds_later retains held := retains.holds held
  holds_getAt scope distance name intact := intact.getAt scope distance name
  holds_get intact found := intact.get? found
  holds_field intact isInstance isField := (intact.instances _ _ isInstance).2 _ _ isField
  holds_function := Heap.holds_newFunction
  holds_object := Heap.holds_newInstance
  holds_class := Heap.holds_newClass
  holds_computed matched intact isBody _ := by
    obtain ⟨-, callee, found⟩ := matched
    obtain ⟨place, isNative⟩ := Heap.native?_of_callable? found
    cases (intact.natives place _ isNative).symm.trans isBody
  allows_fetched _ fetches intact :=
    ⟨(Heap.retains_bindMethod _ _ _).trans (Heap.retains_newFunction _ _),
      (intact.bindMethod _ (fetches.holds intact)).newFunction _⟩
  allows_stored _ held _ intact := ⟨Heap.retains_define _ _ _ _, intact.define _ _ held⟩
  allows_field receiver name held intact :=
    ⟨Heap.retains_setField _ _ _ _, intact.setField receiver name held⟩
  allows_declared _ _ _ held intact := ⟨Heap.retains_define _ _ _ _, intact.define _ _ held⟩
  allows_function _ intact :=
    ⟨(Heap.retains_newFunction _ _).trans (Heap.retains_define _ _ _ _),
      (intact.newFunction _).define _ _ (Heap.holds_newFunction _ _)⟩
  allows_className _ _ _ held _ intact := ⟨Heap.retains_define _ _ _ _, intact.define _ _ held⟩
  allows_superclass _ held leads intact :=
    ⟨Heap.retains_newScope _ _ _, intact.newScope _ (Bindings.all_empty.set (leads.holds held))⟩
  allows_plainClass _ _ intact := by
    refine ⟨Heap.retains_newClass _ _, intact.newClass ?_⟩
    exact List.forall_mem_singleton.mpr (filedAs_methodTable _ _)
  allows_subclass _ _ _ intact := by
    refine ⟨Heap.retains_newClass _ _, intact.newClass ?_⟩
    refine List.forall_mem_cons.mpr ⟨filedAs_methodTable _ _, fun table member => ?_⟩
    obtain ⟨found, isClass, inLineage⟩ := Heap.class?_of_mem_lineage member
    exact intact.classes _ found isClass table inLineage
  allows_block _ intact := ⟨Heap.retains_newScope _ _ _, intact.newScope _ Bindings.all_empty⟩
  allows_parameters _ held intact :=
    ⟨Heap.retains_newScope _ _ _, intact.newScope _ (all_bindParameters _ held)⟩
  allows_instance matched intact := by
    obtain ⟨-, callee, found⟩ := matched
    exact ⟨Heap.retains_newInstance _ _, intact.newInstance (Heap.holds_of_callable? found)⟩
  allows_receiver method held intact :=
    ⟨Heap.retains_bindMethod _ _ _, intact.bindMethod method held⟩

/-- A call of a class gives an instance of that class, at a place where there was none
before.  Whatever its initializer does, it stays an instance of the class. -/
theorem intact_instantiate
    {fuel : Nat}
    {machine : Machine}
    {place : ClassRef}
    {initializer : Option Closure}
    {arguments : List Value}
    (matched : intactInvariant.admits (.call fuel arguments (.ofClass place initializer)) machine)
    (held : ∀ value ∈ arguments, machine.heap.Holds value) :
    intactInvariant.Judged
      (Eval.instantiate (Eval.execute fuel) place initializer arguments) machine
      fun heap value => value = .object (machine.heap.newInstance place).1 ∧
        ∃ fields, heap.instance? (machine.heap.newInstance place).1 = some ⟨place, fields⟩ := by
  have isInstance := (Heap.instance?_newInstance machine.heap place).2
  have made : intactInvariant.Judged (Eval.onHeap (·.newInstance place)) machine _ :=
    intactInvariant.judged_newInstance matched
  rw [Eval.instantiate_eq]
  refine made.bind fun receiver middle isMade _ retains receiverHeld => ?_
  cases isMade
  cases initializer with
  | none => exact Regime.judged_pure ⟨rfl, .empty, isInstance⟩
  | some method =>
    refine (intactInvariant.judged_bindMethod method receiverHeld).bind
      fun closure bound isBound _ further _ => ?_
    have matching : arguments.length = closure.arity := by
      cases isBound
      exact matched.1
    refine Regime.Judged.bind (intactInvariant.judged_callClosure matching fun value member => ?_)
      fun _ after _ _ later _ => Regime.judged_pure ⟨rfl, ?_⟩
    · exact (retains.trans further).holds (held value member)
    · exact (further.trans later).instances _ _ isInstance

end TreeWalk
