import TreeWalk.Bindings
import TreeWalk.Value

/-!
# The heap

Scopes, functions, classes and instances are shared and outlive the statements
that made them, so they live on a heap and are referred to by their places.
Nothing on the heap is ever removed.

A scope may be enclosed by one that was made earlier.  The scopes reached from
it in this way form its chain.  A name is looked up along the chain, or directly
in the scope at a known distance.
-/

namespace TreeWalk

/-- Names bound in a block, call or program, and the scope around it. -/
structure Scope where
  bindings : Bindings Value := .empty
  enclosing : Option ScopeRef := none

/-- A function declaration with the scope in which it was executed. -/
structure Closure where
  declaration : FunctionDecl
  scope : ScopeRef
  isInitializer : Bool

/-- The number of arguments that a function takes. -/
def Closure.arity (closure : Closure) : Nat :=
  closure.declaration.parameters.length

/-- A class with the methods of its lineage: its own, then those of its
superclass, and so on. -/
structure Class where
  name : String
  lineage : List (Bindings Closure)

namespace Class

/-- The method of a class with a given name, the one nearest in the lineage. -/
def method? (ofClass : Class) (name : String) : Option Closure :=
  ofClass.lineage.findSome? (·.get? name)

end Class

/-- What can be called: a native function, a function, or a class with the method
that sets up its instances, if it has one. -/
inductive Callable where
  | native (function : Native)
  | closure (function : Closure)
  | ofClass (place : ClassRef) (initializer : Option Closure)

/-- The number of arguments of a call. -/
def Callable.arity : Callable -> Nat
  | .native function => function.arity
  | .closure function => function.arity
  | .ofClass _ (some initializer) => initializer.arity
  | .ofClass _ none => 0

/-- An instance of a class with its fields. -/
structure Instance where
  ofClass : ClassRef
  fields : Bindings Value

/-- Everything that values refer to. -/
structure Heap where
  scopes : Array Scope := #[]
  natives : Array Native := #[]
  functions : Array Closure := #[]
  classes : Array Class := #[]
  instances : Array Instance := #[]

namespace Heap

/-- Make a scope. -/
def newScope
    (heap : Heap)
    (enclosing : Option ScopeRef)
    (bindings : Bindings Value) : ScopeRef × Heap :=
  (⟨heap.scopes.size⟩, { heap with scopes := heap.scopes.push ⟨bindings, enclosing⟩ })

/-- The scope at a place. -/
def scope (heap : Heap) (place : ScopeRef) : Scope :=
  heap.scopes.getD place.index {}

/-- Bind a name in a scope. -/
def define
    (heap : Heap)
    (place : ScopeRef)
    (name : String)
    (value : Value) : Heap :=
  { heap with
    scopes := heap.scopes.modify place.index fun scope =>
      { scope with bindings := scope.bindings.set name value } }

/-- The first scopes of a chain, up to the given number of them. -/
def chainUpTo (heap : Heap) : Nat -> ScopeRef -> List ScopeRef
  | 0, _ => []
  | count + 1, place =>
    place ::
      match (heap.scope place).enclosing with
      | none => []
      | some outer => heap.chainUpTo count outer

/-- A scope and the scopes around it, innermost first.  They were made one
before the other, so there are no more of them than places up to this one. -/
def chain (heap : Heap) (place : ScopeRef) : List ScopeRef :=
  heap.chainUpTo (place.index + 1) place

/-- The first scope of a chain that binds a name. -/
def binder? (heap : Heap) (place : ScopeRef) (name : String) : Option ScopeRef :=
  (heap.chain place).find? fun scope => (heap.scope scope).bindings.contains name

/-- Look a name up along a chain. -/
def get? (heap : Heap) (place : ScopeRef) (name : String) : Option Value :=
  (heap.binder? place name).bind fun scope => (heap.scope scope).bindings.get? name

/-- Change what a name is bound to in the first scope of a chain that binds
it. -/
def assign?
    (heap : Heap)
    (place : ScopeRef)
    (name : String)
    (value : Value) : Option Heap :=
  (heap.binder? place name).map fun scope => heap.define scope name value

/-- The scope at a distance, or the outermost one if the chain is shorter. -/
def ancestor (heap : Heap) (place : ScopeRef) : Nat -> ScopeRef
  | 0 => place
  | distance + 1 =>
    match (heap.scope place).enclosing with
    | none => place
    | some outer => heap.ancestor outer distance

/-- What a name is bound to in the scope at a distance, and null if it is not
bound there. -/
def getAt
    (heap : Heap)
    (place : ScopeRef)
    (distance : Nat)
    (name : String) : Value :=
  ((heap.scope (heap.ancestor place distance)).bindings.get? name).getD .null

/-- Bind a name in the scope at a distance. -/
def assignAt
    (heap : Heap)
    (place : ScopeRef)
    (distance : Nat)
    (name : String)
    (value : Value) : Heap :=
  heap.define (heap.ancestor place distance) name value

/-- A new scope has the given bindings and the given scope around it. -/
@[simp] theorem scope_newScope_self
    (heap : Heap)
    (enclosing : Option ScopeRef)
    (bindings : Bindings Value) :
    (heap.newScope enclosing bindings).2.scope (heap.newScope enclosing bindings).1 =
      ⟨bindings, enclosing⟩ := by
  simp [newScope, scope]

/-- Making a scope leaves the others as they are. -/
theorem scope_newScope_of_lt
    (heap : Heap)
    (enclosing : Option ScopeRef)
    (bindings : Bindings Value)
    {place : ScopeRef}
    (made : place.index < heap.scopes.size) :
    (heap.newScope enclosing bindings).2.scope place = heap.scope place := by
  simp [newScope, scope, Array.getElem?_push_lt, made]

/-- Binding a name changes the bindings of its scope. -/
theorem bindings_define_self
    (heap : Heap)
    (place : ScopeRef)
    (name : String)
    (value : Value)
    (made : place.index < heap.scopes.size) :
    ((heap.define place name value).scope place).bindings =
      (heap.scope place).bindings.set name value := by
  simp [define, scope, Array.getElem_modify_self, made]

/-- Binding a name leaves other scopes as they are. -/
theorem scope_define_of_ne
    (heap : Heap)
    {place other : ScopeRef}
    (name : String)
    (value : Value)
    (different : other ≠ place) :
    (heap.define place name value).scope other = heap.scope other := by
  have apart : place.index ≠ other.index := by
    intro same
    exact different (by cases place; cases other; simp_all)
  simp [define, scope, Array.getElem?_modify, apart]

/-- Binding a name does not change which scope is around which. -/
@[simp] theorem enclosing_define
    (heap : Heap)
    (place other : ScopeRef)
    (name : String)
    (value : Value) :
    ((heap.define place name value).scope other).enclosing = (heap.scope other).enclosing := by
  by_cases same : other = place
  · subst same
    by_cases made : other.index < heap.scopes.size
    · simp [define, scope, Array.getElem_modify_self, made]
    · simp [define, scope, made]
  · rw [scope_define_of_ne heap name value same]

/-- Put a native function on the heap. -/
def newNative (heap : Heap) (native : Native) : NativeRef × Heap :=
  (⟨heap.natives.size⟩, { heap with natives := heap.natives.push native })

/-- Put a function on the heap. -/
def newFunction (heap : Heap) (closure : Closure) : FunctionRef × Heap :=
  (⟨heap.functions.size⟩, { heap with functions := heap.functions.push closure })

/-- Put a class on the heap. -/
def newClass (heap : Heap) (made : Class) : ClassRef × Heap :=
  (⟨heap.classes.size⟩, { heap with classes := heap.classes.push made })

/-- Put an instance without fields on the heap. -/
def newInstance (heap : Heap) (ofClass : ClassRef) : InstanceRef × Heap :=
  (⟨heap.instances.size⟩, { heap with instances := heap.instances.push ⟨ofClass, .empty⟩ })

/-- The native function at a place. -/
def native? (heap : Heap) (place : NativeRef) : Option Native :=
  heap.natives[place.index]?

/-- The function at a place. -/
def function? (heap : Heap) (place : FunctionRef) : Option Closure :=
  heap.functions[place.index]?

/-- The class at a place. -/
def class? (heap : Heap) (place : ClassRef) : Option Class :=
  heap.classes[place.index]?

/-- The instance at a place. -/
def instance? (heap : Heap) (place : InstanceRef) : Option Instance :=
  heap.instances[place.index]?

/-- A method of the class at a place. -/
def method? (heap : Heap) (place : ClassRef) (name : String) : Option Closure :=
  (heap.class? place).bind (·.method? name)

/-- Set a field of an instance. -/
def setField
    (heap : Heap)
    (place : InstanceRef)
    (name : String)
    (value : Value) : Heap :=
  { heap with
    instances := heap.instances.modify place.index fun object =>
      { object with fields := object.fields.set name value } }

/-- Bind a method to an instance: its scope is a new one in which `this` is the
instance. -/
def bindMethod
    (heap : Heap)
    (method : Closure)
    (receiver : InstanceRef) : Closure × Heap :=
  let (scope, heap) :=
    heap.newScope (some method.scope) (Bindings.empty.set selfName (.object receiver))
  ({ method with scope := scope }, heap)

/-- What a value is when it is called, if it can be. -/
def callable? (heap : Heap) : Value -> Option Callable
  | .native place => (heap.native? place).map .native
  | .function place => (heap.function? place).map .closure
  | .classObject place =>
    (heap.class? place).map fun found => .ofClass place (found.method? initializerName)
  | _ => none

/-- The number of arguments that a value takes when it is called, if it can
be. -/
def arity? (heap : Heap) (value : Value) : Option Nat :=
  (heap.callable? value).map (·.arity)

/-- The name of the class at a place. -/
def className (heap : Heap) (place : ClassRef) : String :=
  ((heap.class? place).map (·.name)).getD ""

/-- The text of a value in program output. -/
def display (heap : Heap) : Value -> String
  | .null => "null"
  | .boolean value => if value then "true" else "false"
  | .number value => Number.display value
  | .string text => text
  | .native place => "<native fn " ++ ((heap.native? place).map (·.name)).getD "" ++ ">"
  | .function place =>
    "<fn " ++ ((heap.function? place).map (·.declaration.name.lexeme)).getD "" ++ ">"
  | .classObject place => heap.className place
  | .object place =>
    ((heap.instance? place).map fun object => heap.className object.ofClass).getD "" ++ " instance"

end Heap
end TreeWalk
