import TreeWalk.Proofs.Evaluation.Invariants
import TreeWalk.Proofs.Tokens

/-!
# The code that is executed

Evaluation executes the program that it is given and the functions and methods that
are on the heap.  It puts nothing on the heap but functions of that code.  So if all
these tokens are in a text, which is any set of tokens, then so are the tokens of
every task that is visited.
-/

namespace TreeWalk

/-- A token stands in a function or a method that is on the heap. -/
inductive Heap.HasToken (heap : Heap) (token : Token) : Prop
  | function
      {place : FunctionRef}
      {closure : Closure}
      (found : heap.function? place = some closure)
      (member : token ∈ closure.declaration.tokens)
  | method
      {place : ClassRef}
      {ofClass : Class}
      {table : Bindings Closure}
      {name : String}
      {closure : Closure}
      (found : heap.class? place = some ofClass)
      (inLineage : table ∈ ofClass.lineage)
      (isMethod : table.get? name = some closure)
      (member : token ∈ closure.declaration.tokens)

/-- All code on the heap is in a text. -/
def Heap.WrittenIn (text : Token -> Prop) (heap : Heap) : Prop :=
  ∀ token, heap.HasToken token -> text token

/-- The tokens of what a call executes. -/
def Callable.tokens : Callable -> List Token
  | .native _ => []
  | .closure function => function.declaration.tokens
  | .ofClass _ none => []
  | .ofClass _ (some method) => method.declaration.tokens

section Found

variable {heap : Heap} {token : Token}

/-- The tokens of a class's method are among those on the heap. -/
theorem Heap.hasToken_of_classMethod
    {place : ClassRef}
    {ofClass : Class}
    {name : String}
    {method : Closure}
    (isClass : heap.class? place = some ofClass)
    (found : ofClass.method? name = some method)
    (member : token ∈ method.declaration.tokens) :
    heap.HasToken token := by
  rw [Class.method?, List.findSome?_eq_some_iff] at found
  obtain ⟨_, table, _, lineage, isMethod, -⟩ := found
  exact .method isClass (by simp [lineage]) isMethod member

/-- The tokens of a method found by looking up the superclasses are among those on the
heap. -/
theorem Heap.hasToken_of_method?
    {place : ClassRef}
    {name : String}
    {method : Closure}
    (found : heap.method? place name = some method)
    (member : token ∈ method.declaration.tokens) :
    heap.HasToken token := by
  rw [method?, Option.bind_eq_some_iff] at found
  obtain ⟨ofClass, isClass, isMethod⟩ := found
  exact hasToken_of_classMethod isClass isMethod member

/-- Whatever can be called is on the heap. -/
theorem Heap.hasToken_of_callable?
    {callee : Value}
    {callable : Callable}
    (found : heap.callable? callee = some callable)
    (member : token ∈ callable.tokens) :
    heap.HasToken token := by
  cases callee with
  | native place =>
    obtain ⟨function, -, rfl⟩ := Option.map_eq_some_iff.mp found
    simp [Callable.tokens] at member
  | function place =>
    obtain ⟨closure, isFunction, rfl⟩ := Option.map_eq_some_iff.mp found
    exact .function isFunction member
  | classObject place =>
    obtain ⟨ofClass, isClass, rfl⟩ := Option.map_eq_some_iff.mp found
    cases isMethod : ofClass.method? initializerName with
    | none => simp [Callable.tokens, isMethod] at member
    | some method =>
      rw [isMethod] at member
      exact hasToken_of_classMethod isClass isMethod member
  | _ => cases found

end Found

namespace Heap.WrittenIn

variable {text : Token -> Prop} {heap before after : Heap}

/-- A heap with the same functions and classes. -/
theorem of_eq
    (written : before.WrittenIn text)
    (functions : after.functions = before.functions)
    (classes : after.classes = before.classes) :
    after.WrittenIn text := by
  intro token isThere
  apply written
  cases isThere with
  | function found member =>
    rw [function?, functions] at found
    exact .function found member
  | method found inLineage isMethod member =>
    rw [class?, classes] at found
    exact .method found inLineage isMethod member

/-- A heap stays written in a text when the closure it gains is. -/
theorem newFunction
    (written : heap.WrittenIn text)
    {closure : Closure}
    (isText : ∀ token ∈ closure.declaration.tokens, text token) :
    (heap.newFunction closure).2.WrittenIn text := by
  intro token isThere
  cases isThere with
  | function found member =>
    simp only [function?, Heap.newFunction, Array.getElem?_push] at found
    split at found
    · cases found
      exact isText token member
    · exact written token (.function found member)
  | method found inLineage isMethod member =>
    exact written token (.method found inLineage isMethod member)

/-- A heap stays written in a text when the methods of the class it gains are, inherited
ones included. -/
theorem newClass
    (written : heap.WrittenIn text)
    {made : Class}
    (isText : ∀ table ∈ made.lineage, ∀ (name : String) (method : Closure),
      table.get? name = some method -> ∀ token ∈ method.declaration.tokens, text token) :
    (heap.newClass made).2.WrittenIn text := by
  intro token isThere
  cases isThere with
  | function found member => exact written token (.function found member)
  | method found inLineage isMethod member =>
    simp only [class?, Heap.newClass, Array.getElem?_push] at found
    split at found
    · cases found
      exact isText _ inLineage _ _ isMethod token member
    · exact written token (.method found inLineage isMethod member)

end Heap.WrittenIn

/-- The tokens of the code that a task is about. -/
def Task.tokens : Task -> List Token
  | .evaluate _ value => value.tokens
  | .each _ values => Expr.listTokens values
  | .store target value => target.name :: value.tokens
  | .execute _ step => step.tokens
  | .sequence _ steps => Stmt.listTokens steps
  | .repeatWhile _ condition body => condition.tokens ++ body.tokens
  | .superclass name reference => [name, reference.name]
  | .invoke _ _ paren _ => [paren]
  | .call _ _ callable => callable.tokens
  | .callClosure _ closure _ => closure.declaration.tokens

/-- The code of a task and all code on the heap are in a text. -/
structure Task.WrittenIn (text : Token -> Prop) (task : Task) (machine : Machine) : Prop where
  heap : machine.heap.WrittenIn text
  tokens : ∀ token ∈ task.tokens, text token

/-- A task begins tasks about parts of its own code, or about code on the heap. -/
theorem Begins.tokens
    {outer inner : Task}
    {middle final : Machine}
    {token : Token}
    (begins : Begins outer middle inner final)
    (member : token ∈ inner.tokens) :
    token ∈ outer.tokens ∨ middle.heap.HasToken token := by
  cases begins with
  | call found => exact .inr (Heap.hasToken_of_callable? found member)
  | setUp => exact .inl member
  | callFunction => exact .inl member
  | body => exact .inl (FunctionDecl.mem_tokens_of_body member)
  | _ =>
    simp only [Task.tokens, Expr.tokens, Expr.listTokens, Expr.optionTokens, Stmt.tokens,
      Stmt.listTokens, Stmt.optionTokens, Option.toList_some, List.map_cons, List.map_nil,
      List.mem_append, List.mem_cons, List.not_mem_nil, or_false] at member ⊢
    tauto

section Methods

variable {text : Token -> Prop} {heap : Heap} {functions : List FunctionDecl}

/-- The methods of a class body of a text are code of the text. -/
theorem tokens_of_methodTable
    {place : ScopeRef}
    {name : String}
    {method : Closure}
    (isText : ∀ token ∈ FunctionDecl.listTokens functions, text token)
    (found : (Eval.methodTable place functions).get? name = some method) :
    ∀ token ∈ method.declaration.tokens, text token := by
  intro token member
  obtain ⟨function, isFunction, isDeclaration, -⟩ := methodTable_get? found
  rw [isDeclaration] at member
  exact isText token (FunctionDecl.mem_listTokens.mpr ⟨function, isFunction, member⟩)

/-- A class made from a class body of a text, and from a lineage of classes on the heap. -/
theorem Heap.WrittenIn.newClass_of_methods
    {name : String}
    {place : ScopeRef}
    {inherited : List (Bindings Closure)}
    (written : heap.WrittenIn text)
    (isText : ∀ token ∈ FunctionDecl.listTokens functions, text token)
    (known : ∀ table ∈ inherited, ∃ parent found,
      heap.class? parent = some found ∧ table ∈ found.lineage) :
    (heap.newClass ⟨name, Eval.methodTable place functions :: inherited⟩).2.WrittenIn text := by
  refine written.newClass fun table member name method found token isToken => ?_
  rcases List.mem_cons.mp member with rfl | isInherited
  · exact tokens_of_methodTable isText found token isToken
  · obtain ⟨parent, ofClass, isClass, inLineage⟩ := known table isInherited
    exact written token (.method isClass inLineage found isToken)

end Methods

/-- Evaluation puts no code on the heap but that of a text. -/
def writtenInvariant (text : Token -> Prop) : Invariant where
  sound machine := machine.heap.WrittenIn text
  leads _ _ := True
  admits task _ := ∀ token ∈ task.tokens, text token
  sound_of_eq written heap _ _ _ := heap ▸ written
  leads_refl _ := trivial
  leads_trans _ _ := trivial
  admits_begun isText begins written _ _ _ token member :=
    (begins.tokens member).elim (isText token) (written token)
  allows_fetched := by
    intro task before machine method receiver _ fetches written
    obtain ⟨place, name, isMethod⟩ := fetches.method
    have entered : (machine.heap.bindMethod method receiver).2.WrittenIn text :=
      written.of_eq rfl rfl
    refine ⟨trivial, entered.newFunction fun token member => ?_⟩
    exact written token (Heap.hasToken_of_method? isMethod member)
  allows_stored _ _ _ written := ⟨trivial, written.of_eq rfl rfl⟩
  allows_field _ _ _ written := ⟨trivial, written.of_eq rfl rfl⟩
  allows_declared _ _ _ _ written := ⟨trivial, written.of_eq rfl rfl⟩
  allows_function := fun {_ declaration machine} isText written => by
    have made : (machine.heap.newFunction ⟨declaration, machine.scope, false⟩).2.WrittenIn text :=
      written.newFunction isText
    exact ⟨trivial, made.of_eq rfl rfl⟩
  allows_className _ _ _ _ _ written := ⟨trivial, written.of_eq rfl rfl⟩
  allows_superclass _ _ _ written := ⟨trivial, written.of_eq rfl rfl⟩
  allows_plainClass isText _ written := by
    refine ⟨trivial, written.newClass_of_methods (fun token member => isText token ?_) nofun⟩
    simp [Task.tokens, Stmt.tokens, member]
  allows_subclass isText _ _ written := by
    refine ⟨trivial, written.newClass_of_methods (fun token member => isText token ?_)
      fun table member => ?_⟩
    · simp [Task.tokens, Stmt.tokens, member]
    · obtain ⟨found, isClass, inLineage⟩ := Heap.class?_of_mem_lineage member
      exact ⟨_, found, isClass, inLineage⟩
  allows_block _ written := ⟨trivial, written.of_eq rfl rfl⟩
  allows_parameters _ _ written := ⟨trivial, written.of_eq rfl rfl⟩
  allows_instance _ written := ⟨trivial, written.of_eq rfl rfl⟩
  allows_receiver _ _ written := ⟨trivial, written.of_eq rfl rfl⟩

/-- Whatever a task of a text gets to is a task of the text. -/
theorem Task.Visits.writtenIn
    {text : Token -> Prop}
    {task inner : Task}
    {machine final : Machine}
    (visits : task.Visits machine inner final)
    (written : task.WrittenIn text machine) :
    inner.WrittenIn text final := by
  obtain ⟨-, heap, tokens, -⟩ := (writtenInvariant text).visited visits written.tokens
    (task.passes_of_forall fun _ => trivial) written.heap
  exact ⟨heap, tokens⟩

end TreeWalk
