import TreeWalk.Proofs.Distances
import TreeWalk.Proofs.Renumbering

/-!
# Resolving a program with other numbers

The walk over a program does not look at the numbers of references.  With other
numbers it files the same distances under these, and finds the same errors.
-/

namespace TreeWalk
namespace Resolution

/-- Two walks have come to the same, but that the second one goes over a program
with other numbers. -/
structure Renumbered (number : Nat -> Nat) (walk other : Resolution) : Prop where
  scopes : other.scopes = walk.scopes
  globals : other.globals = walk.globals
  errors : other.errors = walk.errors
  topLevel : other.topLevel = walk.topLevel.map number
  distances : Distances.Renumbered number walk.distances other.distances

variable {number : Nat -> Nat} {walk other : Resolution}

theorem Renumbered.report
    (renumbered : Renumbered number walk other)
    (token : Token)
    (fault : StaticFault) :
    Renumbered number (walk.report token fault) (other.report token fault) := by
  refine ⟨renumbered.scopes, renumbered.globals, ?_, renumbered.topLevel, renumbered.distances⟩
  rw [Resolution.report, Resolution.report, renumbered.errors]

/-- Steps that change nothing but the scopes and the globals. -/
theorem Renumbered.scoped
    {scopes : List (Bindings Binding)}
    {globals : List String}
    (renumbered : Renumbered number walk other) :
    Renumbered number { walk with scopes := scopes, globals := globals }
      { other with scopes := scopes, globals := globals } :=
  ⟨rfl, rfl, renumbered.errors, renumbered.topLevel, renumbered.distances⟩

theorem Renumbered.enter
    (renumbered : Renumbered number walk other)
    (scope : Bindings Binding) :
    Renumbered number (walk.enter scope) (other.enter scope) := by
  rw [Resolution.enter, Resolution.enter, renumbered.scopes, renumbered.globals]
  exact renumbered.scoped

theorem Renumbered.leave (renumbered : Renumbered number walk other) :
    Renumbered number walk.leave other.leave := by
  rw [Resolution.leave, Resolution.leave, renumbered.scopes, renumbered.globals]
  exact renumbered.scoped

theorem Renumbered.declare
    (renumbered : Renumbered number walk other)
    (name : String) :
    Renumbered number (walk.declare name) (other.declare name) := by
  unfold Resolution.declare
  rw [renumbered.scopes, renumbered.globals]
  split
  · exact renumbered.scoped
  · split
    · exact renumbered
    · exact renumbered.scoped

theorem Renumbered.define
    (renumbered : Renumbered number walk other)
    (name : String) :
    Renumbered number (walk.define name) (other.define name) := by
  unfold Resolution.define
  rw [renumbered.scopes, renumbered.globals]
  split
  · exact renumbered
  · exact renumbered.scoped

theorem Renumbered.bind
    (renumbered : Renumbered number walk other)
    (name : String) :
    Renumbered number ((walk.declare name).define name) ((other.declare name).define name) :=
  (renumbered.declare name).define name

section Parts

variable (injective : Function.Injective number)

include injective

/-- The distance of a reference is filed under its other number. -/
theorem Renumbered.file
    (renumbered : Renumbered number walk other)
    (around : Surroundings)
    (reference : Reference)
    (skip : Nat) :
    Renumbered number (walk.file around reference skip)
      (other.file around (reference.renumber number) skip) := by
  have sameDistance : other.distance? reference.name.lexeme skip =
      walk.distance? reference.name.lexeme skip := by
    rw [distance?, distance?, renumbered.scopes]
  unfold Resolution.file
  dsimp only [Reference.renumber]
  rw [sameDistance]
  split
  · exact renumbered
  · refine ⟨renumbered.scopes, renumbered.globals, renumbered.errors, ?_,
      renumbered.distances.insert injective _ _⟩
    dsimp only
    split
    · rw [renumbered.topLevel, Array.map_push]
    · exact renumbered.topLevel

/-- Reading a name files the reference and its renumbering at the same distance. -/
theorem Renumbered.readName
    (renumbered : Renumbered number walk other)
    (around : Surroundings)
    (reference : Reference) :
    Renumbered number (walk.readName around reference)
      (other.readName around (reference.renumber number)) := by
  have sameBound : ∀ scopes name, other.boundIn scopes name = walk.boundIn scopes name := by
    intro scopes name
    rw [boundIn, boundIn, renumbered.globals]
  unfold Resolution.readName
  dsimp only [Reference.renumber]
  rw [renumbered.scopes]
  split
  · exact renumbered.file injective around reference 0
  · split
    · rw [sameBound]
      split
      · exact renumbered.file injective around reference 1
      · exact renumbered.report reference.name .readInOwnInitializer
    · exact renumbered.file injective around reference 0

/-- Reading the receiver files the reference and its renumbering at the same distance. -/
theorem Renumbered.readSelf
    (renumbered : Renumbered number walk other)
    (around : Surroundings)
    (keyword : Reference) :
    Renumbered number (walk.readSelf around keyword)
      (other.readSelf around (keyword.renumber number)) := by
  unfold Resolution.readSelf
  split
  · exact renumbered.report keyword.name .selfOutsideClass
  · exact renumbered.file injective around keyword 0
  · exact renumbered.file injective around keyword 0

/-- Reading the superclass files the reference and its renumbering at the same distance.
-/
theorem Renumbered.readInherited
    (renumbered : Renumbered number walk other)
    (around : Surroundings)
    (keyword : Reference) :
    Renumbered number (walk.readInherited around keyword)
      (other.readInherited around (keyword.renumber number)) := by
  unfold Resolution.readInherited
  split
  · exact renumbered.report keyword.name .inheritedOutsideClass
  · exact renumbered.report keyword.name .inheritedWithoutSuperclass
  · exact renumbered.file injective around keyword 0

omit injective

mutual

/-- The walks over an expression and over its renumbering differ in the ids only. -/
theorem renumbered_expression
    (injective : Function.Injective number)
    (around : Surroundings) :
    ∀ (value : Expr) {walk other : Resolution}, Renumbered number walk other ->
      Renumbered number (expression around value walk)
        (expression around (value.renumber number) other)
  | .literal _, _, _, renumbered => by
    rw [Expr.renumber, expression, expression]
    exact renumbered
  | .grouping inner, _, _, renumbered => by
    rw [Expr.renumber, expression, expression]
    exact renumbered_expression injective around inner renumbered
  | .unary _ right, _, _, renumbered => by
    rw [Expr.renumber, expression, expression]
    exact renumbered_expression injective around right renumbered
  | .binary left _ right, _, _, renumbered => by
    rw [Expr.renumber, expression, expression]
    exact renumbered_expression injective around right
      (renumbered_expression injective around left renumbered)
  | .logical left _ right, _, _, renumbered => by
    rw [Expr.renumber, expression, expression]
    exact renumbered_expression injective around right
      (renumbered_expression injective around left renumbered)
  | .read target, _, _, renumbered => by
    rw [Expr.renumber, expression, expression]
    exact renumbered.readName injective around target
  | .assign target value, _, _, renumbered => by
    rw [Expr.renumber, expression, expression]
    exact (renumbered_expression injective around value renumbered).file injective around target 0
  | .call callee _ arguments, _, _, renumbered => by
    rw [Expr.renumber, expression, expression]
    exact renumbered_expressions injective around arguments
      (renumbered_expression injective around callee renumbered)
  | .property object _, _, _, renumbered => by
    rw [Expr.renumber, expression, expression]
    exact renumbered_expression injective around object renumbered
  | .setProperty object _ value, _, _, renumbered => by
    rw [Expr.renumber, expression, expression]
    exact renumbered_expression injective around object
      (renumbered_expression injective around value renumbered)
  | .self keyword, _, _, renumbered => by
    rw [Expr.renumber, expression, expression]
    exact renumbered.readSelf injective around keyword
  | .inherited keyword _, _, _, renumbered => by
    rw [Expr.renumber, expression, expression]
    exact renumbered.readInherited injective around keyword

/-- The walks over expressions and over their renumberings differ in the ids only. -/
theorem renumbered_expressions
    (injective : Function.Injective number)
    (around : Surroundings) :
    ∀ (values : List Expr) {walk other : Resolution}, Renumbered number walk other ->
      Renumbered number (expressions around values walk)
        (expressions around (Expr.listRenumber number values) other)
  | [], _, _, renumbered => by
    rw [Expr.listRenumber, expressions, expressions]
    exact renumbered
  | first :: rest, _, _, renumbered => by
    rw [Expr.listRenumber, expressions, expressions]
    exact renumbered_expressions injective around rest
      (renumbered_expression injective around first renumbered)

end

include injective

/-- The walks over an optional expression and over its renumbering differ in the ids only.
-/
theorem Renumbered.optionalExpression
    (renumbered : Renumbered number walk other)
    (around : Surroundings)
    (value : Option Expr) :
    Renumbered number (optionalExpression around value walk)
      (optionalExpression around (Expr.optionRenumber number value) other) := by
  cases value with
  | none => exact renumbered
  | some value => exact renumbered_expression injective around value renumbered

omit injective in
theorem Renumbered.enterFunction
    (renumbered : Renumbered number walk other)
    (parameters : List Token) :
    Renumbered number (walk.enterFunction parameters) (other.enterFunction parameters) :=
  List.foldl_rel (renumbered.enter .empty) fun parameter _ _ _ entered =>
    entered.bind parameter.lexeme

/-- Entering a subclass and its renumbering. -/
theorem Renumbered.enterSubclass
    (renumbered : Renumbered number walk other)
    (around : Surroundings)
    (name : Token)
    (superclass : Reference) :
    Renumbered number (walk.enterSubclass around name superclass)
      (other.enterSubclass around name (superclass.renumber number)) := by
  unfold Resolution.enterSubclass
  rw [Reference.name_renumber]
  refine Renumbered.enter (Renumbered.readName injective ?_ _ superclass) _
  split
  · exact renumbered.report superclass.name .inheritsFromItself
  · exact renumbered

omit injective

mutual

/-- The walks over a statement and over its renumbering differ in the ids only. -/
theorem renumbered_statement
    (injective : Function.Injective number)
    (around : Surroundings) :
    ∀ (step : Stmt) {walk other : Resolution}, Renumbered number walk other ->
      Renumbered number (statement around step walk)
        (statement around (step.renumber number) other)
  | .expression value, _, _, renumbered => by
    rw [Stmt.renumber, statement, statement]
    exact renumbered_expression injective around value renumbered
  | .print value, _, _, renumbered => by
    rw [Stmt.renumber, statement, statement]
    exact renumbered_expression injective around value renumbered
  | .declare name initializer, _, _, renumbered => by
    rw [Stmt.renumber, statement, statement]
    exact ((renumbered.declare name.lexeme).optionalExpression injective around
      initializer).define name.lexeme
  | .block body, _, _, renumbered => by
    rw [Stmt.renumber, statement, statement]
    exact (renumbered_statements injective around body (renumbered.enter .empty)).leave
  | .conditional condition thenBranch elseBranch, _, _, renumbered => by
    rw [Stmt.renumber, statement, statement]
    exact renumbered_optionalStatement injective around elseBranch
      (renumbered_statement injective around thenBranch
        (renumbered_expression injective around condition renumbered))
  | .loop condition body, _, _, renumbered => by
    rw [Stmt.renumber, statement, statement]
    exact renumbered_statement injective around body
      (renumbered_expression injective around condition renumbered)
  | .function declaration, _, _, renumbered => by
    rw [Stmt.renumber, statement, statement, FunctionDecl.name_renumber]
    exact renumbered_function injective _ declaration (renumbered.bind declaration.name.lexeme)
  | .returns keyword value, _, _, renumbered => by
    rw [Stmt.renumber, statement, statement]
    refine Renumbered.optionalExpression injective ?_ around value
    split
    · exact renumbered.report keyword .returnAtTopLevel
    · exact renumbered
  | .classDecl name superclass functions, _, _, renumbered => by
    have named := renumbered.bind name.lexeme
    cases superclass with
    | none =>
      rw [Stmt.renumber, Option.map_none, statement, statement]
      exact (renumbered_methods injective _ functions (named.enter _)).leave
    | some reference =>
      rw [Stmt.renumber, Option.map_some, statement, statement]
      exact (renumbered_methods injective _ functions
        ((named.enterSubclass injective around name reference).enter _)).leave.leave

/-- The walks over statements and over their renumberings differ in the ids only. -/
theorem renumbered_statements
    (injective : Function.Injective number)
    (around : Surroundings) :
    ∀ (steps : List Stmt) {walk other : Resolution}, Renumbered number walk other ->
      Renumbered number (statements around steps walk)
        (statements around (Stmt.listRenumber number steps) other)
  | [], _, _, renumbered => by
    rw [Stmt.listRenumber, statements, statements]
    exact renumbered
  | first :: rest, _, _, renumbered => by
    rw [Stmt.listRenumber, statements, statements]
    exact renumbered_statements injective around rest
      (renumbered_statement injective around first renumbered)

/-- The walks over a branch and over its renumbering differ in the ids only. -/
theorem renumbered_optionalStatement
    (injective : Function.Injective number)
    (around : Surroundings) :
    ∀ (branch : Option Stmt) {walk other : Resolution}, Renumbered number walk other ->
      Renumbered number (optionalStatement around branch walk)
        (optionalStatement around (Stmt.optionRenumber number branch) other)
  | none, _, _, renumbered => by
    rw [Stmt.optionRenumber, optionalStatement, optionalStatement]
    exact renumbered
  | some branch, _, _, renumbered => by
    rw [Stmt.optionRenumber, optionalStatement, optionalStatement]
    exact renumbered_statement injective around branch renumbered

/-- The walks over a function and over its renumbering differ in the ids only. -/
theorem renumbered_function
    (injective : Function.Injective number)
    (around : Surroundings) :
    ∀ (declaration : FunctionDecl) {walk other : Resolution}, Renumbered number walk other ->
      Renumbered number (function around declaration walk)
        (function around (declaration.renumber number) other)
  | ⟨name, parameters, body⟩, _, _, renumbered => by
    rw [FunctionDecl.renumber, function, function]
    exact (renumbered_statements injective around body (renumbered.enterFunction parameters)).leave

/-- The walks over methods and over their renumberings differ in the ids only. -/
theorem renumbered_methods
    (injective : Function.Injective number)
    (around : Surroundings) :
    ∀ (functions : List FunctionDecl) {walk other : Resolution}, Renumbered number walk other ->
      Renumbered number (methods around functions walk)
        (methods around (FunctionDecl.listRenumber number functions) other)
  | [], _, _, renumbered => by
    rw [FunctionDecl.listRenumber, methods, methods]
    exact renumbered
  | first :: rest, _, _, renumbered => by
    rw [FunctionDecl.listRenumber, methods, methods, FunctionDecl.name_renumber]
    exact renumbered_methods injective around rest
      (renumbered_function injective _ first renumbered)

end

end Parts

/-- A program with other numbers is resolved in the same way. -/
theorem renumbered_resolve
    (injective : Function.Injective number)
    (globals : List String)
    (program : List Stmt) :
    Renumbered number (resolve globals program)
      (resolve globals (Stmt.listRenumber number program)) := by
  exact renumbered_statements injective {} program
    ⟨rfl, rfl, rfl, Array.map_empty.symm, Distances.renumbered_empty number⟩

end Resolution
end TreeWalk
