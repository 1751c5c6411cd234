import Mathlib.Data.List.Forall2
import TreeWalk.Proofs.Evaluation.Stages
import TreeWalk.Proofs.Heap.Chain

/-!
# Runs in lockstep

Two runs of programs that are much the same go on in lockstep: each step of one has its
counterpart in the other.  A `Pairing` says which parts of the two programs and which
scopes of the two heaps belong together.  It is a `Lockstep` when parts that belong
together are of the same form, references that belong together mean scopes that do, and
every change of the scopes keeps them paired.  Then the heaps stay paired as a whole.
-/

namespace TreeWalk

section Related

variable
  {α β γ δ : Type}
  {relation : α -> β -> Prop}
  {first : Option α}
  {second : Option β}

/-- A weaker relation between two optional values, needed only where they are there. -/
theorem rel_imp_of_eq
    {weaker : α -> β -> Prop}
    (related : Option.Rel relation first second)
    (implies : ∀ one other, first = some one -> relation one other -> weaker one other) :
    Option.Rel weaker first second := by
  cases related with
  | some related => exact .some (implies _ _ rfl related)
  | none => exact .none

/-- A weaker relation between two optional values. -/
theorem rel_imp
    {weaker : α -> β -> Prop}
    (related : Option.Rel relation first second)
    (implies : ∀ one other, relation one other -> weaker one other) :
    Option.Rel weaker first second :=
  rel_imp_of_eq related fun one other _ => implies one other

/-- Either both are there, and related, or none of them is. -/
theorem rel_cases (related : Option.Rel relation first second) :
    (first = none ∧ second = none) ∨
      ∃ one other, first = some one ∧ second = some other ∧ relation one other := by
  cases related with
  | some related => exact .inr ⟨_, _, rfl, rfl, related⟩
  | none => exact .inl ⟨rfl, rfl⟩

/-- What is made of related things is related. -/
theorem rel_map
    {made : γ -> δ -> Prop}
    {ofFirst : α -> γ}
    {ofSecond : β -> δ}
    (related : Option.Rel relation first second)
    (makes : ∀ one other, relation one other -> made (ofFirst one) (ofSecond other)) :
    Option.Rel made (first.map ofFirst) (second.map ofSecond) := by
  cases related with
  | some related => exact .some (makes _ _ related)
  | none => exact .none

/-- Related optional values stay related under functions that keep the relation. -/
theorem rel_bind
    {made : γ -> δ -> Prop}
    {ofFirst : α -> Option γ}
    {ofSecond : β -> Option δ}
    (related : Option.Rel relation first second)
    (makes : ∀ one other, relation one other -> Option.Rel made (ofFirst one) (ofSecond other)) :
    Option.Rel made (first.bind ofFirst) (second.bind ofSecond) := by
  cases related with
  | some related => exact makes _ _ related
  | none => exact .none

/-- Related optional values with related defaults. -/
theorem rel_getD
    {default : α}
    {otherDefault : β}
    (related : Option.Rel relation first second)
    (defaults : relation default otherDefault) :
    relation (first.getD default) (second.getD otherDefault) := by
  cases related with
  | some related => exact related
  | none => exact defaults

/-- What is read off related things is the same if the relation keeps it. -/
theorem map_eq_of_rel
    {ofFirst : α -> γ}
    {ofSecond : β -> γ}
    (related : Option.Rel relation first second)
    (kept : ∀ one other, relation one other -> ofSecond other = ofFirst one) :
    second.map ofSecond = first.map ofFirst := by
  cases related with
  | some related => exact congrArg some (kept _ _ related)
  | none => rfl

/-- What is found under a name in the first of some tables that has it is related if the
tables are. -/
theorem rel_findSome?
    {relation : Closure -> Closure -> Prop}
    {tables otherTables : List (Bindings Closure)}
    {name : String}
    (related : List.Forall₂
      (fun table other => Option.Rel relation (table.get? name) (other.get? name))
      tables otherTables) :
    Option.Rel relation (tables.findSome? (·.get? name)) (otherTables.findSome? (·.get? name)) := by
  induction related with
  | nil => exact .none
  | cons found _ inductionHypothesis =>
    rw [List.findSome?_cons, List.findSome?_cons]
    rcases rel_cases found with
      ⟨isNone, otherIsNone⟩ | ⟨_, _, isMethod, otherIsMethod, related⟩
    · rw [isNone, otherIsNone]
      exact inductionHypothesis
    · rw [isMethod, otherIsMethod]
      exact .some related

end Related

/-- A way to spell names anew, which keeps them apart and leaves the names of the two
implicit variables as they are. -/
structure Naming where
  spell : String -> String
  injective : ∀ name other, spell name = spell other -> name = other
  keepsSelf : spell selfName = selfName
  keepsSuperclass : spell superclassName = superclassName

/-- Every name is spelled as before. -/
def Naming.same : Naming where
  spell name := name
  injective _ _ equal := equal
  keepsSelf := rfl
  keepsSuperclass := rfl

/-- Which parts of two programs, and which scopes of the heaps they run on, belong
together.  The code is taken at a position among the scopes around it, and what is known
of the heaps grows with them. -/
structure Pairing where
  /-- Where code stands among the scopes around it. -/
  Position : Type
  /-- What is known of the scopes on the two heaps. -/
  World : Type
  globals : ScopeRef
  before : Distances
  after : Distances
  /-- The same line in both texts. -/
  lines : Nat -> Nat -> Prop
  value : Position -> Expr -> Expr -> Prop
  step : Position -> Stmt -> Stmt -> Prop
  function : Position -> FunctionDecl -> FunctionDecl -> Prop
  /-- References to the same variable. -/
  reads : Position -> Reference -> Reference -> Prop
  /-- References to the superclass of the same method. -/
  inherits : Position -> Reference -> Reference -> Prop
  /-- The position is in a scope in which something may be declared. -/
  declares : Position -> Prop
  /-- How the names that are declared in the scope of a position are spelled. -/
  naming : Position -> Naming
  /-- One position lies in a scope right inside of that of the other. -/
  inside : Position -> Position -> Prop
  /-- The position in a scope that binds an implicit variable. -/
  frame : Position -> Position
  /-- More is known than before. -/
  extended : World -> World -> Prop
  /-- The scopes of two heaps are what is known of them. -/
  scopes : World -> Heap -> Heap -> Prop
  /-- Two scopes bind the same values, to names that are spelled anew. -/
  paired : World -> ScopeRef -> ScopeRef -> Naming -> Prop
  /-- Two scopes are where the code at a position is run. -/
  aligned : World -> Heap -> Heap -> ScopeRef -> ScopeRef -> Position -> Prop

/-- A token and its counterpart, which may be at another line. -/
structure Token.Paired (pairing : Pairing) (token other : Token) : Prop where
  kind : other.kind = token.kind
  lexeme : other.lexeme = token.lexeme
  line : pairing.lines token.line other.line

/-- Two expressions are of the same form, and their parts belong together. -/
inductive Expr.Shape (pairing : Pairing) (position : pairing.Position) : Expr -> Expr -> Prop
  | literal (value : Literal) : Shape pairing position (.literal value) (.literal value)
  | grouping
      {inner otherInner : Expr}
      (values : pairing.value position inner otherInner) :
      Shape pairing position (.grouping inner) (.grouping otherInner)
  | unary
      {operator otherOperator : Token}
      {right otherRight : Expr}
      (operators : operator.Paired pairing otherOperator)
      (rights : pairing.value position right otherRight) :
      Shape pairing position (.unary operator right) (.unary otherOperator otherRight)
  | binary
      {left right otherLeft otherRight : Expr}
      {operator otherOperator : Token}
      (lefts : pairing.value position left otherLeft)
      (operators : operator.Paired pairing otherOperator)
      (rights : pairing.value position right otherRight) :
      Shape pairing position (.binary left operator right)
        (.binary otherLeft otherOperator otherRight)
  | logical
      {left right otherLeft otherRight : Expr}
      {operator otherOperator : Token}
      (lefts : pairing.value position left otherLeft)
      (operators : operator.Paired pairing otherOperator)
      (rights : pairing.value position right otherRight) :
      Shape pairing position (.logical left operator right)
        (.logical otherLeft otherOperator otherRight)
  | read
      {target otherTarget : Reference}
      (targets : pairing.reads position target otherTarget) :
      Shape pairing position (.read target) (.read otherTarget)
  | assign
      {target otherTarget : Reference}
      {value otherValue : Expr}
      (targets : pairing.reads position target otherTarget)
      (values : pairing.value position value otherValue) :
      Shape pairing position (.assign target value) (.assign otherTarget otherValue)
  | call
      {callee otherCallee : Expr}
      {paren otherParen : Token}
      {arguments otherArguments : List Expr}
      (callees : pairing.value position callee otherCallee)
      (parens : paren.Paired pairing otherParen)
      (values : List.Forall₂ (pairing.value position) arguments otherArguments) :
      Shape pairing position (.call callee paren arguments)
        (.call otherCallee otherParen otherArguments)
  | property
      {object otherObject : Expr}
      {name otherName : Token}
      (objects : pairing.value position object otherObject)
      (names : name.Paired pairing otherName) :
      Shape pairing position (.property object name) (.property otherObject otherName)
  | setProperty
      {object otherObject value otherValue : Expr}
      {name otherName : Token}
      (objects : pairing.value position object otherObject)
      (names : name.Paired pairing otherName)
      (values : pairing.value position value otherValue) :
      Shape pairing position (.setProperty object name value)
        (.setProperty otherObject otherName otherValue)
  | self
      {keyword otherKeyword : Reference}
      (keywords : pairing.reads position keyword otherKeyword) :
      Shape pairing position (.self keyword) (.self otherKeyword)
  | inherited
      {keyword otherKeyword : Reference}
      {method otherMethod : Token}
      (keywords : pairing.inherits position keyword otherKeyword)
      (methods : method.Paired pairing otherMethod) :
      Shape pairing position (.inherited keyword method) (.inherited otherKeyword otherMethod)

/-- The position of the methods of a class, apart from their receivers. -/
def Pairing.aroundMethods
    (pairing : Pairing)
    (position : pairing.Position) : Option Reference -> pairing.Position
  | none => position
  | some _ => pairing.frame position

/-- Two statements are of the same form, and their parts belong together. -/
inductive Stmt.Shape (pairing : Pairing) (position : pairing.Position) : Stmt -> Stmt -> Prop
  | expression
      {value otherValue : Expr}
      (values : pairing.value position value otherValue) :
      Shape pairing position (.expression value) (.expression otherValue)
  | print
      {value otherValue : Expr}
      (values : pairing.value position value otherValue) :
      Shape pairing position (.print value) (.print otherValue)
  | declare
      {name otherName : Token}
      {initializer otherInitializer : Option Expr}
      (declares : pairing.declares position)
      (names : otherName.lexeme = (pairing.naming position).spell name.lexeme)
      (initializers : Option.Rel (pairing.value position) initializer otherInitializer) :
      Shape pairing position (.declare name initializer) (.declare otherName otherInitializer)
  | block
      {inner : pairing.Position}
      {body otherBody : List Stmt}
      (inside : pairing.inside position inner)
      (steps : List.Forall₂ (pairing.step inner) body otherBody) :
      Shape pairing position (.block body) (.block otherBody)
  | conditional
      {condition otherCondition : Expr}
      {thenBranch otherThenBranch : Stmt}
      {elseBranch otherElseBranch : Option Stmt}
      (conditions : pairing.value position condition otherCondition)
      (thenBranches : pairing.step position thenBranch otherThenBranch)
      (elseBranches : Option.Rel (pairing.step position) elseBranch otherElseBranch) :
      Shape pairing position (.conditional condition thenBranch elseBranch)
        (.conditional otherCondition otherThenBranch otherElseBranch)
  | loop
      {condition otherCondition : Expr}
      {body otherBody : Stmt}
      (conditions : pairing.value position condition otherCondition)
      (bodies : pairing.step position body otherBody) :
      Shape pairing position (.loop condition body) (.loop otherCondition otherBody)
  | function
      {declaration otherDeclaration : FunctionDecl}
      (declares : pairing.declares position)
      (keeps : (pairing.naming position).spell declaration.name.lexeme = declaration.name.lexeme)
      (functions : pairing.function position declaration otherDeclaration) :
      Shape pairing position (.function declaration) (.function otherDeclaration)
  | returns
      {value otherValue : Option Expr}
      (keyword otherKeyword : Token)
      (values : Option.Rel (pairing.value position) value otherValue) :
      Shape pairing position (.returns keyword value) (.returns otherKeyword otherValue)
  | classDecl
      {name otherName : Token}
      {superclass otherSuperclass : Option Reference}
      {methods otherMethods : List FunctionDecl}
      (declares : pairing.declares position)
      (names : otherName.lexeme = name.lexeme)
      (keeps : (pairing.naming position).spell name.lexeme = name.lexeme)
      (superclasses : Option.Rel (pairing.reads position) superclass otherSuperclass)
      (functions : List.Forall₂
        (pairing.function (pairing.frame (pairing.aroundMethods position superclass)))
        methods otherMethods) :
      Shape pairing position (.classDecl name superclass methods)
        (.classDecl otherName otherSuperclass otherMethods)

/-- Two functions have the same name, as many parameters, and bodies that belong together
in the scopes of their calls. -/
structure FunctionDecl.Shape
    (pairing : Pairing)
    (position : pairing.Position)
    (declaration other : FunctionDecl) : Prop where
  name : other.name.lexeme = declaration.name.lexeme
  body : ∃ inner, pairing.inside position inner ∧
    other.parameters.map (·.lexeme) =
      declaration.parameters.map (fun name => (pairing.naming inner).spell name.lexeme) ∧
    List.Forall₂ (pairing.step inner) declaration.body other.body

/-- Functions whose declarations belong together, from inside of what is still to come
around them, and which remember scopes where these stand. -/
def Closure.Paired
    (pairing : Pairing)
    (world : pairing.World)
    (heap other : Heap)
    (coming : pairing.Position -> pairing.Position)
    (closure otherClosure : Closure) : Prop :=
  ∃ position, pairing.declares position ∧
    pairing.aligned world heap other closure.scope otherClosure.scope position ∧
    pairing.function (coming position) closure.declaration otherClosure.declaration ∧
    otherClosure.isInitializer = closure.isInitializer

/-- Methods of the same names belong together.  The scope of the receiver is still to
come. -/
def Bindings.MethodsPaired
    (pairing : Pairing)
    (world : pairing.World)
    (heap other : Heap)
    (table otherTable : Bindings Closure) : Prop :=
  ∀ name, Option.Rel (Closure.Paired pairing world heap other pairing.frame)
    (table.get? name) (otherTable.get? name)

/-- Classes of the same name with methods that belong together. -/
structure Class.Paired
    (pairing : Pairing)
    (world : pairing.World)
    (heap other : Heap)
    (ofClass otherClass : Class) : Prop where
  name : otherClass.name = ofClass.name
  lineage : List.Forall₂ (Bindings.MethodsPaired pairing world heap other)
    ofClass.lineage otherClass.lineage

/-- Two heaps whose scopes are what is known of them, with functions and classes that
belong together and the same instances, at the same places. -/
structure Heap.Paired
    (pairing : Pairing)
    (world : pairing.World)
    (heap other : Heap) : Prop where
  scopes : pairing.scopes world heap other
  natives : other.natives = heap.natives
  functionsSize : other.functions.size = heap.functions.size
  functions : ∀ place : FunctionRef,
    Option.Rel (Closure.Paired pairing world heap other id) (heap.function? place)
      (other.function? place)
  classesSize : other.classes.size = heap.classes.size
  classes : ∀ place : ClassRef,
    Option.Rel (Class.Paired pairing world heap other) (heap.class? place) (other.class? place)
  instances : other.instances = heap.instances

/-- A pairing that lasts while both runs go on. -/
structure Lockstep extends Pairing where
  value_shape : ∀ {position : Position} {one other : Expr},
    value position one other -> one.Shape toPairing position other
  step_shape : ∀ {position : Position} {one other : Stmt},
    step position one other -> one.Shape toPairing position other
  function_shape : ∀ {position : Position} {one other : FunctionDecl},
    function position one other -> one.Shape toPairing position other
  reads_line : ∀ {position : Position} {reference other : Reference},
    reads position reference other -> lines reference.name.line other.name.line
  inherits_line : ∀ {position : Position} {reference other : Reference},
    inherits position reference other -> lines reference.name.line other.name.line
  inside_frame : ∀ position, inside position (frame position)
  naming_frame : ∀ position, naming (frame position) = .same
  declares_inside : ∀ {outer inner : Position}, inside outer inner -> declares inner
  extended_refl : ∀ world, extended world world
  extended_trans : ∀ {world later last : World},
    extended world later -> extended later last -> extended world last
  aligned_grow : ∀ {world later : World} {heap other after otherAfter : Heap}
    {place otherPlace : ScopeRef} {position : Position},
    aligned world heap other place otherPlace position ->
    Heap.Grows heap after -> Heap.Grows other otherAfter -> extended world later ->
      aligned later after otherAfter place otherPlace position
  innermost : ∀ {world : World} {heap other : Heap} {place otherPlace : ScopeRef}
    {position : Position},
    scopes world heap other -> aligned world heap other place otherPlace position ->
    declares position -> paired world place otherPlace (naming position)
  outermost : ∀ {world : World} {heap other : Heap}, scopes world heap other ->
    paired world globals globals .same ∧ (heap.scope globals).enclosing = none ∧
      (other.scope globals).enclosing = none
  bindings : ∀ {world : World} {heap other : Heap} {place otherPlace : ScopeRef}
    {naming : Naming},
    scopes world heap other -> paired world place otherPlace naming ->
      place.index < heap.scopes.size ∧
        (other.scope otherPlace).bindings = (heap.scope place).bindings.rename naming.spell
  reads_paired : ∀ {world : World} {heap other : Heap} {place otherPlace : ScopeRef}
    {position : Position} {reference otherReference : Reference},
    scopes world heap other -> aligned world heap other place otherPlace position ->
    reads position reference otherReference ->
      (before[reference.id]? = none ∧ after[otherReference.id]? = none ∧
        otherReference.name.lexeme = reference.name.lexeme) ∨
      ∃ distance otherDistance naming, before[reference.id]? = some distance ∧
        after[otherReference.id]? = some otherDistance ∧
        paired world (heap.ancestor place distance) (other.ancestor otherPlace otherDistance)
          naming ∧
        otherReference.name.lexeme = naming.spell reference.name.lexeme
  inherits_paired : ∀ {world : World} {heap other : Heap} {place otherPlace : ScopeRef}
    {position : Position} {reference otherReference : Reference},
    scopes world heap other -> aligned world heap other place otherPlace position ->
    inherits position reference otherReference ->
      (before[reference.id]? = none ∧ after[otherReference.id]? = none) ∨
      ∃ distance otherDistance naming inner, before[reference.id]? = some distance ∧
        after[otherReference.id]? = some otherDistance ∧
        paired world (heap.ancestor place distance) (other.ancestor otherPlace otherDistance)
          naming ∧
        paired world (heap.ancestor place (distance - 1))
          (other.ancestor otherPlace (otherDistance - 1)) inner
  scopes_of_eq : ∀ {world : World} {heap other after otherAfter : Heap},
    scopes world heap other -> after.scopes = heap.scopes -> otherAfter.scopes = other.scopes ->
      scopes world after otherAfter
  scopes_define : ∀ {world : World} {heap other : Heap} {place otherPlace : ScopeRef}
    {naming : Naming},
    scopes world heap other -> paired world place otherPlace naming ->
    ∀ (name : String) (value : Value),
      scopes world (heap.define place name value)
        (other.define otherPlace (naming.spell name) value)
  scopes_newScope : ∀ {world : World} {heap other : Heap} {place otherPlace : ScopeRef}
    {outer inner : Position},
    scopes world heap other -> aligned world heap other place otherPlace outer ->
    inside outer inner -> ∀ values : Bindings Value, ∃ later, extended world later ∧
      scopes later (heap.newScope (some place) values).2
        (other.newScope (some otherPlace) (values.rename (naming inner).spell)).2 ∧
      aligned later (heap.newScope (some place) values).2
        (other.newScope (some otherPlace) (values.rename (naming inner).spell)).2
        (heap.newScope (some place) values).1
        (other.newScope (some otherPlace) (values.rename (naming inner).spell)).1 inner

section Lasting

variable
  {lockstep : Lockstep}
  {world later : lockstep.World}
  {heap other after otherAfter : Heap}
  {coming : lockstep.Position -> lockstep.Position}
  {closure otherClosure : Closure}
  {ofClass otherClass : Class}

/-- Functions that belong together do so on every two later heaps. -/
theorem Closure.Paired.grow
    (closures : closure.Paired lockstep.toPairing world heap other coming otherClosure)
    (grows : Heap.Grows heap after)
    (otherGrows : Heap.Grows other otherAfter)
    (extended : lockstep.extended world later) :
    closure.Paired lockstep.toPairing later after otherAfter coming otherClosure := by
  obtain ⟨position, declares, aligned, functions, isInitializer⟩ := closures
  exact ⟨position, declares, lockstep.aligned_grow aligned grows otherGrows extended, functions,
    isInitializer⟩

/-- Classes that belong together do so on every two later heaps. -/
theorem Class.Paired.grow
    (classes : ofClass.Paired lockstep.toPairing world heap other otherClass)
    (grows : Heap.Grows heap after)
    (otherGrows : Heap.Grows other otherAfter)
    (extended : lockstep.extended world later) :
    ofClass.Paired lockstep.toPairing later after otherAfter otherClass :=
  ⟨classes.name, classes.lineage.imp fun _ _ tables name =>
    rel_imp (tables name) fun _ _ closures => closures.grow grows otherGrows extended⟩

/-- Functions that belong together take the same number of arguments. -/
theorem Closure.Paired.arity
    (closures : closure.Paired lockstep.toPairing world heap other coming otherClosure) :
    otherClosure.arity = closure.arity := by
  obtain ⟨position, -, -, functions, -⟩ := closures
  obtain ⟨inner, -, parameters, -⟩ := (lockstep.function_shape functions).body
  have sameLength := congrArg List.length parameters
  rwa [List.length_map, List.length_map] at sameLength

/-- A method that is found in a class belongs to the one that is found in the other
class. -/
theorem Class.Paired.method?
    (classes : ofClass.Paired lockstep.toPairing world heap other otherClass)
    (name : String) :
    Option.Rel (Closure.Paired lockstep.toPairing world heap other lockstep.frame)
      (ofClass.method? name) (otherClass.method? name) :=
  rel_findSome? (classes.lineage.imp fun _ _ tables => tables name)

end Lasting

namespace Heap

section Reading

variable
  {lockstep : Lockstep}
  {world : lockstep.World}
  {heap other : Heap}
  {place otherPlace : ScopeRef}
  {naming : Naming}

/-- Paired scopes have a name and its other spelling for the same value. -/
theorem Paired.get?
    (same : heap.Paired lockstep.toPairing world other)
    (paired : lockstep.paired world place otherPlace naming)
    (name : String) :
    (other.scope otherPlace).bindings.get? (naming.spell name) =
      (heap.scope place).bindings.get? name := by
  rw [(lockstep.bindings same.scopes paired).2]
  exact Bindings.get?_rename naming.injective _ name

/-- Paired scopes bind a name and its other spelling alike. -/
theorem Paired.contains
    (same : heap.Paired lockstep.toPairing world other)
    (paired : lockstep.paired world place otherPlace naming)
    (name : String) :
    (other.scope otherPlace).bindings.contains (naming.spell name) =
      (heap.scope place).bindings.contains name := by
  rw [Bindings.contains, Bindings.contains, same.get? paired]

/-- At distances that lead to paired scopes, a name and its other spelling are read as
the same value. -/
theorem Paired.getAt
    {distance otherDistance : Nat}
    (same : heap.Paired lockstep.toPairing world other)
    (paired : lockstep.paired world (heap.ancestor place distance)
      (other.ancestor otherPlace otherDistance) naming)
    (name : String) :
    other.getAt otherPlace otherDistance (naming.spell name) = heap.getAt place distance name := by
  rw [Heap.getAt, Heap.getAt, same.get? paired]

/-- From the tables, an assignment finds the same binding in both heaps. -/
theorem Paired.binder?_globals
    (same : heap.Paired lockstep.toPairing world other)
    (name : String) :
    other.binder? lockstep.globals name = heap.binder? lockstep.globals name := by
  obtain ⟨paired, outermost, otherOutermost⟩ := lockstep.outermost same.scopes
  have sameName : (other.scope lockstep.globals).bindings.contains name =
      (heap.scope lockstep.globals).bindings.contains name := same.contains paired name
  rw [binder?, binder?, chain_outermost outermost, chain_outermost otherOutermost,
    List.find?_singleton, List.find?_singleton, sameName]

/-- From the tables, a read finds the same value in both heaps. -/
theorem Paired.get?_globals
    (same : heap.Paired lockstep.toPairing world other)
    (name : String) :
    other.get? lockstep.globals name = heap.get? lockstep.globals name := by
  obtain ⟨paired, outermost, -⟩ := lockstep.outermost same.scopes
  have sameValue : (other.scope lockstep.globals).bindings.get? name =
      (heap.scope lockstep.globals).bindings.get? name := same.get? paired name
  rw [Heap.get?, Heap.get?, same.binder?_globals]
  unfold binder?
  rw [chain_outermost outermost, List.find?_singleton]
  split
  · exact sameValue
  · rfl

/-- Paired heaps show a value in the same way. -/
theorem Paired.display
    (same : heap.Paired lockstep.toPairing world other)
    (value : Value) :
    other.display value = heap.display value := by
  have sameClass : ∀ place, other.className place = heap.className place := by
    intro place
    have sameName := map_eq_of_rel (same.classes place) fun _ _ found => found.name
    rw [className, className, sameName]
  cases value with
  | native place => rw [Heap.display, Heap.display, native?, native?, same.natives]
  | function place =>
    have sameName : (other.function? place).map (·.declaration.name.lexeme) =
        (heap.function? place).map (·.declaration.name.lexeme) := by
      refine map_eq_of_rel (same.functions place) ?_
      rintro closure otherClosure ⟨position, -, -, functions, -⟩
      exact (lockstep.function_shape functions).name
    rw [Heap.display, Heap.display, sameName]
  | classObject place => exact sameClass place
  | object place =>
    rw [Heap.display, Heap.display, instance?, instance?, same.instances, funext sameClass]
  | _ => rfl

/-- Paired heaps have methods that belong together in the same class. -/
theorem Paired.method?
    (same : heap.Paired lockstep.toPairing world other)
    (place : ClassRef)
    (name : String) :
    Option.Rel (Closure.Paired lockstep.toPairing world heap other lockstep.frame)
      (heap.method? place name) (other.method? place name) :=
  rel_bind (same.classes place) fun _ _ found => found.method? name

/-- The methods of a class and of its superclasses belong together table by table. -/
theorem Paired.lineage
    (same : heap.Paired lockstep.toPairing world other)
    (place : ClassRef) :
    List.Forall₂ (Bindings.MethodsPaired lockstep.toPairing world heap other)
      (((heap.class? place).map (·.lineage)).getD [])
      (((other.class? place).map (·.lineage)).getD []) :=
  rel_getD (rel_map (same.classes place) fun _ _ found => found.lineage) .nil

end Reading

/-! ## Changing paired heaps -/

section Changing

variable
  {lockstep : Lockstep}
  {world : lockstep.World}
  {heap other : Heap}

/-- Heaps stay paired while their scopes do, as long as they have the same functions and
classes as before. -/
theorem Paired.advance
    {later : lockstep.World}
    {after otherAfter : Heap}
    (same : heap.Paired lockstep.toPairing world other)
    (scopes : lockstep.scopes later after otherAfter)
    (grows : Grows heap after)
    (otherGrows : Grows other otherAfter)
    (extended : lockstep.extended world later)
    (natives : after.natives = heap.natives ∧ otherAfter.natives = other.natives)
    (functions : after.functions = heap.functions ∧ otherAfter.functions = other.functions)
    (classes : after.classes = heap.classes ∧ otherAfter.classes = other.classes)
    (instances : otherAfter.instances = after.instances) :
    after.Paired lockstep.toPairing later otherAfter where
  scopes := scopes
  natives := by rw [natives.1, natives.2, same.natives]
  functionsSize := by rw [functions.1, functions.2, same.functionsSize]
  functions place := by
    rw [function?, function?, functions.1, functions.2]
    exact rel_imp (same.functions place) fun _ _ closures =>
      closures.grow grows otherGrows extended
  classesSize := by rw [classes.1, classes.2, same.classesSize]
  classes place := by
    rw [class?, class?, classes.1, classes.2]
    exact rel_imp (same.classes place) fun _ _ found => found.grow grows otherGrows extended
  instances := instances

/-- A name is bound, under its other spelling, in paired scopes. -/
theorem Paired.define
    {place otherPlace : ScopeRef}
    {naming : Naming}
    (same : heap.Paired lockstep.toPairing world other)
    (paired : lockstep.paired world place otherPlace naming)
    (name : String)
    (value : Value) :
    (heap.define place name value).Paired lockstep.toPairing world
      (other.define otherPlace (naming.spell name) value) :=
  same.advance (lockstep.scopes_define same.scopes paired name value)
    (grows_define heap place name value) (grows_define other otherPlace _ value)
    (lockstep.extended_refl world) ⟨rfl, rfl⟩ ⟨rfl, rfl⟩ ⟨rfl, rfl⟩ same.instances

/-- Scopes are made right inside of aligned ones. -/
theorem Paired.newScope
    {place otherPlace : ScopeRef}
    {outer inner : lockstep.Position}
    (same : heap.Paired lockstep.toPairing world other)
    (aligned : lockstep.aligned world heap other place otherPlace outer)
    (inside : lockstep.inside outer inner)
    (values : Bindings Value) :
    ∃ later, lockstep.extended world later ∧
      (heap.newScope (some place) values).2.Paired lockstep.toPairing later
        (other.newScope (some otherPlace) (values.rename (lockstep.naming inner).spell)).2 ∧
      lockstep.aligned later (heap.newScope (some place) values).2
        (other.newScope (some otherPlace) (values.rename (lockstep.naming inner).spell)).2
        (heap.newScope (some place) values).1
        (other.newScope (some otherPlace) (values.rename (lockstep.naming inner).spell)).1
        inner := by
  obtain ⟨later, extended, scopes, alignedInside⟩ :=
    lockstep.scopes_newScope same.scopes aligned inside values
  exact ⟨later, extended, same.advance scopes (grows_newScope _ _ _) (grows_newScope _ _ _)
    extended ⟨rfl, rfl⟩ ⟨rfl, rfl⟩ ⟨rfl, rfl⟩ same.instances, alignedInside⟩

/-- The closures of a heap with one closure more. -/
theorem function?_newFunction (heap : Heap) (closure : Closure) (place : FunctionRef) :
    (heap.newFunction closure).2.function? place =
      if place.index = heap.functions.size then some closure else heap.function? place := by
  simp [newFunction, function?, Array.getElem?_push]

/-- The classes of a heap with one class more. -/
theorem class?_newClass (heap : Heap) (made : Class) (place : ClassRef) :
    (heap.newClass made).2.class? place =
      if place.index = heap.classes.size then some made else heap.class? place := by
  simp [newClass, class?, Array.getElem?_push]

/-- Heaps are paired when each gains one of two functions that belong together. -/
theorem Paired.newFunction
    {closure otherClosure : Closure}
    (same : heap.Paired lockstep.toPairing world other)
    (closures : closure.Paired lockstep.toPairing world heap other id otherClosure) :
    (heap.newFunction closure).2.Paired lockstep.toPairing world
      (other.newFunction otherClosure).2 where
  scopes := lockstep.scopes_of_eq same.scopes rfl rfl
  natives := same.natives
  functionsSize := by simp [Heap.newFunction, same.functionsSize]
  functions place := by
    rw [function?_newFunction, function?_newFunction, same.functionsSize]
    split
    · exact .some (closures.grow (.of_scopes_eq rfl) (.of_scopes_eq rfl)
        (lockstep.extended_refl world))
    · exact rel_imp (same.functions place) fun _ _ found =>
        found.grow (.of_scopes_eq rfl) (.of_scopes_eq rfl) (lockstep.extended_refl world)
  classesSize := same.classesSize
  classes place := rel_imp (same.classes place) fun _ _ found =>
    found.grow (.of_scopes_eq rfl) (.of_scopes_eq rfl) (lockstep.extended_refl world)
  instances := same.instances

/-- Heaps are paired when each gains one of two classes that belong together. -/
theorem Paired.newClass
    {made otherMade : Class}
    (same : heap.Paired lockstep.toPairing world other)
    (classes : made.Paired lockstep.toPairing world heap other otherMade) :
    (heap.newClass made).2.Paired lockstep.toPairing world (other.newClass otherMade).2 where
  scopes := lockstep.scopes_of_eq same.scopes rfl rfl
  natives := same.natives
  functionsSize := same.functionsSize
  functions place := rel_imp (same.functions place) fun _ _ found =>
    found.grow (.of_scopes_eq rfl) (.of_scopes_eq rfl) (lockstep.extended_refl world)
  classesSize := by simp [Heap.newClass, same.classesSize]
  classes place := by
    rw [class?_newClass, class?_newClass, same.classesSize]
    split
    · exact .some (classes.grow (.of_scopes_eq rfl) (.of_scopes_eq rfl)
        (lockstep.extended_refl world))
    · exact rel_imp (same.classes place) fun _ _ found =>
        found.grow (.of_scopes_eq rfl) (.of_scopes_eq rfl) (lockstep.extended_refl world)
  instances := same.instances

/-- Heaps stay paired when their instances change in the same way. -/
theorem Paired.withInstances
    (same : heap.Paired lockstep.toPairing world other)
    (instances : Array Instance) :
    Paired lockstep.toPairing world { heap with instances := instances }
      { other with instances := instances } :=
  same.advance (lockstep.scopes_of_eq same.scopes rfl rfl) (.of_scopes_eq rfl) (.of_scopes_eq rfl)
    (lockstep.extended_refl world) ⟨rfl, rfl⟩ ⟨rfl, rfl⟩ ⟨rfl, rfl⟩ rfl

end Changing

end Heap

end TreeWalk
