import Std.Data.TreeMap
import TreeWalk.Bindings
import TreeWalk.Error
import TreeWalk.Syntax

/-!
# Resolving names

Before a program runs, every reference to a local name is given its distance:
the number of scopes between the place of the reference and the scope that binds
the name.  References that no enclosing scope binds are left to the global scope
and have no distance.

The walk over a program keeps a stack of the scopes around the current place.
A name stands in its scope as declared from its declaration on, and as defined
once its initializer has been walked.
-/

namespace TreeWalk

/-- Distances of references, by the numbers of the references. -/
abbrev Distances := Std.TreeMap Nat Nat

/-- The kind of function around a place in the program. -/
inductive FunctionKind where
  | none
  | function
  | method
  | initializer
deriving DecidableEq, Repr

/-- The kind of class around a place in the program. -/
inductive ClassKind where
  | none
  | plain
  | subclass
deriving DecidableEq, Repr

/-- Why a well-formed program may not run. -/
inductive StaticFault where
  | readInOwnInitializer
  | returnAtTopLevel
  | inheritsFromItself
  | selfOutsideClass
  | inheritedOutsideClass
  | inheritedWithoutSuperclass
deriving DecidableEq, Repr

/-- The wording of a static fault. -/
def StaticFault.message : StaticFault -> String
  | readInOwnInitializer => "Can't read local variable in its own initializer."
  | returnAtTopLevel => "Can't return from top-level code."
  | inheritsFromItself => "A class can't inherit from itself."
  | selfOutsideClass => "Can't use 'this' outside of a class."
  | inheritedOutsideClass => "Can't use 'super' outside of a class."
  | inheritedWithoutSuperclass => "Can't use 'super' in a class with no superclass."

/-- A static fault and the token at which it was found. -/
structure StaticError where
  token : Token
  fault : StaticFault
deriving DecidableEq

/-- The reported form of a static error. -/
def StaticError.toError (error : StaticError) : Error :=
  .static error.token error.fault.message

/-- Whether a name in a scope has only been declared, or has been defined. -/
inductive Binding where
  | declared
  | defined
deriving DecidableEq, Repr

/-- What surrounds a place in the program. -/
structure Surroundings where
  functionKind : FunctionKind := .none
  classKind : ClassKind := .none
deriving DecidableEq, Repr

/-- The state of the walk: the scopes around the current place, innermost first,
the known global names, and what has been found so far.  The references outside
of all functions are listed apart. -/
structure Resolution where
  scopes : List (Bindings Binding) := []
  globals : List String := []
  distances : Distances := ∅
  topLevel : Array Nat := #[]
  errors : Array StaticError := #[]

namespace Resolution

/-- Note a fault. -/
def report (token : Token) (fault : StaticFault) (walk : Resolution) : Resolution :=
  { walk with errors := walk.errors.push ⟨token, fault⟩ }

/-- Enter a scope. -/
def enter (scope : Bindings Binding) (walk : Resolution) : Resolution :=
  { walk with scopes := scope :: walk.scopes }

/-- Leave the innermost scope. -/
def leave (walk : Resolution) : Resolution :=
  { walk with scopes := walk.scopes.tail }

/-- Declare a name.  A name that its scope already has keeps its standing. -/
def declare (name : String) (walk : Resolution) : Resolution :=
  match walk.scopes with
  | [] => { walk with globals := if walk.globals.contains name then walk.globals
      else name :: walk.globals }
  | scope :: outer =>
    if scope.contains name then walk
    else { walk with scopes := scope.set name .declared :: outer }

/-- Mark a name of the innermost scope as defined. -/
def define (name : String) (walk : Resolution) : Resolution :=
  match walk.scopes with
  | [] => walk
  | scope :: outer => { walk with scopes := scope.set name .defined :: outer }

/-- The distance to the first scope that binds a name, not counting the `skip`
innermost ones. -/
def distance? (walk : Resolution) (name : String) (skip : Nat) : Option Nat :=
  ((walk.scopes.drop skip).findIdx? (·.contains name)).map (skip + ·)

/-- File the distance of a reference, if a scope binds its name. -/
def file
    (around : Surroundings)
    (reference : Reference)
    (skip : Nat)
    (walk : Resolution) : Resolution :=
  match walk.distance? reference.name.lexeme skip with
  | none => walk
  | some distance =>
    { walk with
      distances := walk.distances.insert reference.id distance
      topLevel :=
        if around.functionKind = .none then walk.topLevel.push reference.id
        else walk.topLevel }

/-- Whether a name is bound in one of these scopes or globally. -/
def boundIn (walk : Resolution) (scopes : List (Bindings Binding)) (name : String) : Bool :=
  scopes.any (·.contains name) || walk.globals.contains name

/-- Resolve a variable that is read.  In its own initializer the name means a
binding further out, and there has to be one. -/
def readName
    (around : Surroundings)
    (reference : Reference)
    (walk : Resolution) : Resolution :=
  let name := reference.name.lexeme
  match walk.scopes with
  | [] => walk.file around reference 0
  | scope :: outer =>
    if scope.get? name = some .declared then
      if walk.boundIn outer name then
        walk.file around reference 1
      else
        walk.report reference.name .readInOwnInitializer
    else
      walk.file around reference 0

/-- Resolve `this`. -/
def readSelf
    (around : Surroundings)
    (keyword : Reference)
    (walk : Resolution) : Resolution :=
  match around.classKind with
  | .none => walk.report keyword.name .selfOutsideClass
  | .plain => walk.file around keyword 0
  | .subclass => walk.file around keyword 0

/-- Resolve `super`. -/
def readInherited
    (around : Surroundings)
    (keyword : Reference)
    (walk : Resolution) : Resolution :=
  match around.classKind with
  | .none => walk.report keyword.name .inheritedOutsideClass
  | .plain => walk.report keyword.name .inheritedWithoutSuperclass
  | .subclass => walk.file around keyword 0

mutual

/-- Resolve the references of an expression. -/
def expression (around : Surroundings) : Expr -> Resolution -> Resolution
  | .literal _, walk => walk
  | .grouping inner, walk => expression around inner walk
  | .unary _ right, walk => expression around right walk
  | .binary left _ right, walk => expression around right (expression around left walk)
  | .logical left _ right, walk => expression around right (expression around left walk)
  | .read target, walk => walk.readName around target
  | .assign target value, walk => (expression around value walk).file around target 0
  | .call callee _ arguments, walk => expressions around arguments (expression around callee walk)
  | .property object _, walk => expression around object walk
  | .setProperty object _ value, walk => expression around object (expression around value walk)
  | .self keyword, walk => walk.readSelf around keyword
  | .inherited keyword _, walk => walk.readInherited around keyword

/-- Resolve the references of expressions in order. -/
def expressions (around : Surroundings) : List Expr -> Resolution -> Resolution
  | [], walk => walk
  | first :: rest, walk => expressions around rest (expression around first walk)

end

/-- Resolve the references of an expression that may be missing. -/
def optionalExpression (around : Surroundings) : Option Expr -> Resolution -> Resolution
  | none, walk => walk
  | some value, walk => expression around value walk

/-- Enter the scope of a function, which starts with its parameters. -/
def enterFunction (parameters : List Token) (walk : Resolution) : Resolution :=
  parameters.foldl
    (fun walk parameter => (walk.declare parameter.lexeme).define parameter.lexeme)
    (walk.enter .empty)

/-- The kind of function that a method is. -/
def methodKind (name : String) : FunctionKind :=
  if name = initializerName then .initializer else .method

/-- Resolve the superclass of a class, and enter the scope that binds it. -/
def enterSubclass
    (around : Surroundings)
    (name : Token)
    (superclass : Reference)
    (walk : Resolution) : Resolution :=
  let checked :=
    if superclass.name.lexeme = name.lexeme then
      walk.report superclass.name .inheritsFromItself
    else
      walk
  (checked.readName { around with classKind := .subclass } superclass).enter
    (Bindings.empty.set superclassName .defined)

mutual

/-- Resolve the references of a statement. -/
def statement (around : Surroundings) : Stmt -> Resolution -> Resolution
  | .expression value, walk => expression around value walk
  | .print value, walk => expression around value walk
  | .declare name initializer, walk =>
    (optionalExpression around initializer (walk.declare name.lexeme)).define name.lexeme
  | .block body, walk => (statements around body (walk.enter .empty)).leave
  | .conditional condition thenBranch elseBranch, walk =>
    optionalStatement around elseBranch
      (statement around thenBranch (expression around condition walk))
  | .loop condition body, walk => statement around body (expression around condition walk)
  | .function declaration, walk =>
    function { around with functionKind := .function } declaration
      ((walk.declare declaration.name.lexeme).define declaration.name.lexeme)
  | .returns keyword value, walk =>
    optionalExpression around value <|
      if around.functionKind = .none then walk.report keyword .returnAtTopLevel else walk
  | .classDecl name superclass functions, walk =>
    let named := (walk.declare name.lexeme).define name.lexeme
    let self := Bindings.empty.set selfName .defined
    match superclass with
    | none => (methods { around with classKind := .plain } functions (named.enter self)).leave
    | some reference =>
      (methods { around with classKind := .subclass } functions
        ((named.enterSubclass around name reference).enter self)).leave.leave

/-- Resolve the references of statements in order. -/
def statements (around : Surroundings) : List Stmt -> Resolution -> Resolution
  | [], walk => walk
  | first :: rest, walk => statements around rest (statement around first walk)

/-- Resolve the references of a statement that may be missing. -/
def optionalStatement (around : Surroundings) : Option Stmt -> Resolution -> Resolution
  | none, walk => walk
  | some value, walk => statement around value walk

/-- Resolve the references of a function body in a scope of its own. -/
def function (around : Surroundings) : FunctionDecl -> Resolution -> Resolution
  | ⟨_, parameters, body⟩, walk =>
    (statements around body (walk.enterFunction parameters)).leave

/-- Resolve the references of methods in order. -/
def methods (around : Surroundings) : List FunctionDecl -> Resolution -> Resolution
  | [], walk => walk
  | first :: rest, walk =>
    methods around rest
      (function { around with functionKind := methodKind first.name.lexeme } first walk)

end

end Resolution

/-- Resolve a program, given the names that are known to be global. -/
def resolve (globals : List String) (program : List Stmt) : Resolution :=
  Resolution.statements {} program { globals := globals }

end TreeWalk
