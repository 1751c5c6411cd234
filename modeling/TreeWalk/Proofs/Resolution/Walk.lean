import TreeWalk.Proofs.Bindings
import TreeWalk.Proofs.Grammar.Form
import TreeWalk.Proofs.Grammar.Numbering
import TreeWalk.Resolution

/-!
# What the walk changes

Walking over a part of a program files distances under the numbers of its
references and under no others, takes back no error, and leaves the scopes as
they were, except that a declaration binds its name in the innermost one.
-/

namespace TreeWalk

namespace Resolution

/-! ## Filed references -/

/-- The walk from one state to another, in a function of the given kind, files
distances under the given numbers only, and takes back no error and no known
global.  Inside of a function it lists no references as outside of all
functions. -/
structure Adds
    (kind : FunctionKind)
    (ids : List Nat)
    (before after : Resolution) : Prop where
  distances : ∀ id, id ∉ ids -> after.distances[id]? = before.distances[id]?
  topLevel : ∀ id, id ∉ ids -> (id ∈ after.topLevel ↔ id ∈ before.topLevel)
  inFunction : kind ≠ .none -> after.topLevel = before.topLevel
  errors : before.errors.size ≤ after.errors.size
  globals : before.globals ⊆ after.globals

namespace Adds

variable {kind : FunctionKind} {ids others : List Nat} {before middle after : Resolution}

theorem refl (walk : Resolution) : Adds kind [] walk walk :=
  ⟨fun _ _ => rfl, fun _ _ => Iff.rfl, fun _ => rfl, Nat.le_refl _, List.Subset.refl _⟩

/-- Two steps of the walk add the references of each. -/
theorem trans
    (one : Adds kind ids before middle)
    (other : Adds kind others middle after) :
    Adds kind (ids ++ others) before after := by
  refine ⟨fun id absent => ?_, fun id absent => ?_, fun inside => ?_,
    Nat.le_trans one.errors other.errors, List.Subset.trans one.globals other.globals⟩
  · rw [List.mem_append, not_or] at absent
    rw [other.distances id absent.2, one.distances id absent.1]
  · rw [List.mem_append, not_or] at absent
    rw [other.topLevel id absent.2, one.topLevel id absent.1]
  · rw [other.inFunction inside, one.inFunction inside]

/-- What a step adds may be said of more references. -/
theorem mono
    (adds : Adds kind ids before after)
    (included : ids ⊆ others) :
    Adds kind others before after :=
  ⟨fun id absent => adds.distances id fun member => absent (included member),
    fun id absent => adds.topLevel id fun member => absent (included member),
    adds.inFunction, adds.errors, adds.globals⟩

/-- A step that files nothing may follow. -/
theorem andThen
    (one : Adds kind ids before middle)
    (other : Adds kind [] middle after) :
    Adds kind ids before after := by
  have both := one.trans other
  rwa [List.append_nil] at both

/-- What is walked inside of a function may be part of anything. -/
theorem ofFunction
    {inner : FunctionKind}
    (adds : Adds inner ids before after)
    (inside : inner ≠ .none) :
    Adds kind ids before after :=
  ⟨adds.distances, adds.topLevel, fun _ => adds.inFunction inside, adds.errors, adds.globals⟩

end Adds

variable {kind : FunctionKind}

theorem adds_report (token : Token) (fault : StaticFault) (walk : Resolution) :
    Adds kind [] walk (walk.report token fault) :=
  ⟨fun _ _ => rfl, fun _ _ => Iff.rfl, fun _ => rfl, by simp [report], List.Subset.refl _⟩

theorem adds_enter (scope : Bindings Binding) (walk : Resolution) :
    Adds kind [] walk (walk.enter scope) :=
  ⟨fun _ _ => rfl, fun _ _ => Iff.rfl, fun _ => rfl, Nat.le_refl _, List.Subset.refl _⟩

theorem adds_leave (walk : Resolution) : Adds kind [] walk walk.leave :=
  ⟨fun _ _ => rfl, fun _ _ => Iff.rfl, fun _ => rfl, Nat.le_refl _, List.Subset.refl _⟩

/-- A name that is declared outside of all scopes is a known global. -/
theorem mem_globals_declare
    {walk : Resolution}
    (outside : walk.scopes = [])
    (name known : String) :
    known ∈ (walk.declare name).globals ↔ known = name ∨ known ∈ walk.globals := by
  unfold declare
  rw [outside]
  dsimp only
  split
  · rename_i member
    rw [List.contains_iff_mem] at member
    exact ⟨.inr, fun either => either.elim (· ▸ member) id⟩
  · exact List.mem_cons

theorem adds_declare (name : String) (walk : Resolution) :
    Adds kind [] walk (walk.declare name) := by
  unfold declare
  split
  · refine ⟨fun _ _ => rfl, fun _ _ => Iff.rfl, fun _ => rfl, Nat.le_refl _, ?_⟩
    dsimp only
    split
    · exact List.Subset.refl _
    · exact List.subset_cons_self _ _
  · split
    · exact .refl walk
    · exact ⟨fun _ _ => rfl, fun _ _ => Iff.rfl, fun _ => rfl, Nat.le_refl _, List.Subset.refl _⟩

theorem adds_define (name : String) (walk : Resolution) : Adds kind [] walk (walk.define name) := by
  unfold define
  split
  · exact .refl walk
  · exact ⟨fun _ _ => rfl, fun _ _ => Iff.rfl, fun _ => rfl, Nat.le_refl _, List.Subset.refl _⟩

/-- Filing adds the one reference. -/
theorem adds_file
    (around : Surroundings)
    (reference : Reference)
    (skip : Nat)
    (walk : Resolution) :
    Adds around.functionKind [reference.id] walk (walk.file around reference skip) := by
  unfold file
  split
  · exact ⟨fun _ _ => rfl, fun _ _ => Iff.rfl, fun _ => rfl, Nat.le_refl _, List.Subset.refl _⟩
  · refine ⟨fun id absent => ?_, fun id absent => ?_, fun inside => ?_, Nat.le_refl _,
      List.Subset.refl _⟩
    · rw [List.mem_singleton] at absent
      simp only [Std.TreeMap.getElem?_insert, Nat.compare_eq_eq]
      rw [if_neg (Ne.symm absent)]
    · rw [List.mem_singleton] at absent
      dsimp only
      split
      · simp [absent]
      · rfl
    · dsimp only
      rw [if_neg inside]

/-- Reading a name adds its reference. -/
theorem adds_readName
    (around : Surroundings)
    (reference : Reference)
    (walk : Resolution) :
    Adds around.functionKind [reference.id] walk (walk.readName around reference) := by
  unfold readName
  dsimp only
  split
  · exact adds_file around reference 0 walk
  · split
    · split
      · exact adds_file around reference 1 walk
      · exact (adds_report _ _ _).mono (List.nil_subset _)
    · exact adds_file around reference 0 walk

/-- Reading the receiver adds the keyword. -/
theorem adds_readSelf
    (around : Surroundings)
    (keyword : Reference)
    (walk : Resolution) :
    Adds around.functionKind [keyword.id] walk (walk.readSelf around keyword) := by
  unfold readSelf
  split
  · exact (adds_report _ _ _).mono (List.nil_subset _)
  · exact adds_file around keyword 0 walk
  · exact adds_file around keyword 0 walk

/-- Reading the superclass adds the keyword. -/
theorem adds_readInherited
    (around : Surroundings)
    (keyword : Reference)
    (walk : Resolution) :
    Adds around.functionKind [keyword.id] walk (walk.readInherited around keyword) := by
  unfold readInherited
  split
  · exact (adds_report _ _ _).mono (List.nil_subset _)
  · exact (adds_report _ _ _).mono (List.nil_subset _)
  · exact adds_file around keyword 0 walk

mutual

/-- The walk over an expression adds its references. -/
theorem adds_expression (around : Surroundings) :
    ∀ (value : Expr) (walk : Resolution),
      Adds around.functionKind value.ids walk (expression around value walk)
  | .literal _, walk => by
    rw [expression, Expr.ids]
    exact .refl walk
  | .grouping inner, walk => by
    rw [expression, Expr.ids]
    exact adds_expression around inner walk
  | .unary _ right, walk => by
    rw [expression, Expr.ids]
    exact adds_expression around right walk
  | .binary left _ right, walk => by
    rw [expression, Expr.ids]
    exact (adds_expression around left walk).trans (adds_expression around right _)
  | .logical left _ right, walk => by
    rw [expression, Expr.ids]
    exact (adds_expression around left walk).trans (adds_expression around right _)
  | .read target, walk => by
    rw [expression, Expr.ids]
    exact adds_readName around target walk
  | .assign target value, walk => by
    rw [expression, Expr.ids]
    exact (adds_expression around value walk).trans (adds_file around target 0 _)
  | .call callee _ arguments, walk => by
    rw [expression, Expr.ids]
    exact (adds_expression around callee walk).trans (adds_expressions around arguments _)
  | .property object _, walk => by
    rw [expression, Expr.ids]
    exact adds_expression around object walk
  | .setProperty object _ value, walk => by
    rw [expression, Expr.ids]
    refine ((adds_expression around value walk).trans (adds_expression around object _)).mono ?_
    exact (List.perm_append_comm).subset
  | .self keyword, walk => by
    rw [expression, Expr.ids]
    exact adds_readSelf around keyword walk
  | .inherited keyword _, walk => by
    rw [expression, Expr.ids]
    exact adds_readInherited around keyword walk

/-- The walk over expressions adds their references in order. -/
theorem adds_expressions (around : Surroundings) :
    ∀ (values : List Expr) (walk : Resolution),
      Adds around.functionKind (Expr.listIds values) walk (expressions around values walk)
  | [], walk => by
    rw [expressions, Expr.listIds]
    exact .refl walk
  | first :: rest, walk => by
    rw [expressions, Expr.listIds]
    exact (adds_expression around first walk).trans (adds_expressions around rest _)

end

/-- The walk over an optional expression adds its references. -/
theorem adds_optionalExpression
    (around : Surroundings)
    (value : Option Expr)
    (walk : Resolution) :
    Adds around.functionKind (Expr.optionIds value) walk
      (optionalExpression around value walk) := by
  cases value with
  | none => exact .refl walk
  | some value => exact adds_expression around value walk

/-- Bind a name at once, without an initializer. -/
theorem adds_bind (name : String) (walk : Resolution) :
    Adds kind [] walk ((walk.declare name).define name) :=
  (adds_declare name walk).andThen (adds_define name _)

theorem adds_enterFunction (parameters : List Token) (walk : Resolution) :
    Adds kind [] walk (walk.enterFunction parameters) :=
  List.foldlRecOn parameters _ (adds_enter .empty walk) fun _ adds parameter _ =>
    adds.andThen (adds_bind parameter.lexeme _)

/-- The state in which the superclass of a class is resolved: a class that names
itself is reported. -/
def checkSuperclass (name : Token) (superclass : Reference) (walk : Resolution) : Resolution :=
  if superclass.name.lexeme = name.lexeme then
    walk.report superclass.name .inheritsFromItself
  else
    walk

theorem adds_checkSuperclass (name : Token) (superclass : Reference) (walk : Resolution) :
    Adds kind [] walk (walk.checkSuperclass name superclass) := by
  unfold checkSuperclass
  split
  · exact adds_report _ _ _
  · exact .refl walk

/-- Entering a subclass checks the superclass, reads it, and opens a scope for it. -/
theorem enterSubclass_eq
    (around : Surroundings)
    (name : Token)
    (superclass : Reference)
    (walk : Resolution) :
    walk.enterSubclass around name superclass =
      ((walk.checkSuperclass name superclass).readName
        { around with classKind := .subclass } superclass).enter
          (Bindings.empty.set superclassName .defined) :=
  rfl

/-- Entering a subclass adds the reference to its superclass. -/
theorem adds_enterSubclass
    (around : Surroundings)
    (name : Token)
    (superclass : Reference)
    (walk : Resolution) :
    Adds around.functionKind [superclass.id] walk (walk.enterSubclass around name superclass) := by
  rw [enterSubclass_eq]
  have read := adds_readName { around with classKind := .subclass } superclass
    (walk.checkSuperclass name superclass)
  exact ((adds_checkSuperclass name superclass walk).trans read).andThen (adds_enter _ _)

/-- A method is some kind of function. -/
theorem methodKind_ne_none (name : String) : methodKind name ≠ .none := by
  unfold methodKind
  split <;> simp

mutual

/-- The walk over a statement adds its references. -/
theorem adds_statement (around : Surroundings) :
    ∀ (step : Stmt) (walk : Resolution),
      Adds around.functionKind step.ids walk (statement around step walk)
  | .expression value, walk => by
    rw [statement, Stmt.ids]
    exact adds_expression around value walk
  | .print value, walk => by
    rw [statement, Stmt.ids]
    exact adds_expression around value walk
  | .declare name initializer, walk => by
    rw [statement, Stmt.ids]
    have initialized := adds_optionalExpression around initializer (walk.declare name.lexeme)
    exact ((adds_declare name.lexeme walk).trans initialized).andThen (adds_define name.lexeme _)
  | .block body, walk => by
    rw [statement, Stmt.ids]
    exact ((adds_enter .empty walk).trans (adds_statements around body _)).andThen (adds_leave _)
  | .conditional condition thenBranch elseBranch, walk => by
    rw [statement, Stmt.ids]
    exact ((adds_expression around condition walk).trans (adds_statement around thenBranch _)).trans
      (adds_optionalStatement around elseBranch _)
  | .loop condition body, walk => by
    rw [statement, Stmt.ids]
    exact (adds_expression around condition walk).trans (adds_statement around body _)
  | .function declaration, walk => by
    rw [statement, Stmt.ids]
    have inside := adds_function { around with functionKind := .function } declaration
      ((walk.declare declaration.name.lexeme).define declaration.name.lexeme)
    exact (adds_bind declaration.name.lexeme walk).trans (inside.ofFunction (by simp))
  | .returns keyword value, walk => by
    rw [statement, Stmt.ids]
    have reported : Adds around.functionKind [] walk
        (if around.functionKind = .none then walk.report keyword .returnAtTopLevel else walk) := by
      split
      · exact adds_report _ _ _
      · exact .refl walk
    exact reported.trans (adds_optionalExpression around value _)
  | .classDecl name none methods, walk => by
    rw [statement, Stmt.ids, Reference.optionIds]
    have inside := adds_methods { around with classKind := .plain } methods
      (((walk.declare name.lexeme).define name.lexeme).enter
        (Bindings.empty.set selfName .defined))
    exact (((adds_bind name.lexeme walk).andThen (adds_enter _ _)).trans inside).andThen
      (adds_leave _)
  | .classDecl name (some superclass) methods, walk => by
    rw [statement, Stmt.ids, Reference.optionIds]
    have inside := adds_methods { around with classKind := .subclass } methods
      ((((walk.declare name.lexeme).define name.lexeme).enterSubclass around name superclass).enter
        (Bindings.empty.set selfName .defined))
    have named := (adds_bind name.lexeme walk).trans (adds_enterSubclass around name superclass _)
    exact (((named.andThen (adds_enter _ _)).trans inside).andThen (adds_leave _)).andThen
      (adds_leave _)

/-- The walk over statements adds their references in order. -/
theorem adds_statements (around : Surroundings) :
    ∀ (steps : List Stmt) (walk : Resolution),
      Adds around.functionKind (Stmt.listIds steps) walk (statements around steps walk)
  | [], walk => by
    rw [statements, Stmt.listIds]
    exact .refl walk
  | first :: rest, walk => by
    rw [statements, Stmt.listIds]
    exact (adds_statement around first walk).trans (adds_statements around rest _)

/-- The walk over a branch adds its references. -/
theorem adds_optionalStatement (around : Surroundings) :
    ∀ (step : Option Stmt) (walk : Resolution),
      Adds around.functionKind (Stmt.optionIds step) walk (optionalStatement around step walk)
  | none, walk => by
    rw [optionalStatement, Stmt.optionIds]
    exact .refl walk
  | some step, walk => by
    rw [optionalStatement, Stmt.optionIds]
    exact adds_statement around step walk

/-- The walk over a function adds the references of its body. -/
theorem adds_function (around : Surroundings) :
    ∀ (declaration : FunctionDecl) (walk : Resolution),
      Adds around.functionKind declaration.ids walk (function around declaration walk)
  | ⟨_, parameters, body⟩, walk => by
    rw [function, FunctionDecl.ids]
    have inside := adds_statements around body (walk.enterFunction parameters)
    exact ((adds_enterFunction parameters walk).trans inside).andThen (adds_leave _)

/-- The walk over methods adds the references of their bodies in order. -/
theorem adds_methods (around : Surroundings) :
    ∀ (declarations : List FunctionDecl) (walk : Resolution),
      Adds around.functionKind (FunctionDecl.listIds declarations) walk
        (methods around declarations walk)
  | [], walk => by
    rw [methods, FunctionDecl.listIds]
    exact .refl walk
  | first :: rest, walk => by
    rw [methods, FunctionDecl.listIds]
    have inside := adds_function
      { around with functionKind := methodKind first.name.lexeme } first walk
    exact (inside.ofFunction (methodKind_ne_none _)).trans (adds_methods around rest _)

end

/-- A statement outside of all scopes makes its name a known global. -/
theorem mem_globals_statement
    {walk : Resolution}
    {step : Stmt}
    {name : String}
    (around : Surroundings)
    (outside : walk.scopes = [])
    (declares : step.declaredName? = some name) :
    name ∈ (statement around step walk).globals := by
  have declared : name ∈ (walk.declare name).globals :=
    (mem_globals_declare outside name name).mpr (.inl rfl)
  have bound : Adds around.functionKind [] (walk.declare name) ((walk.declare name).define name) :=
    adds_define name _
  have known := bound.globals declared
  cases step with
  | declare token initializer =>
    cases declares
    rw [statement]
    have initialized := adds_optionalExpression around initializer (walk.declare token.lexeme)
    exact (initialized.andThen (adds_define token.lexeme _)).globals declared
  | function declaration =>
    cases declares
    rw [statement]
    exact (adds_function _ declaration _).globals known
  | classDecl token superclass functions =>
    cases declares
    cases superclass with
    | none =>
      rw [statement]
      exact (adds_methods _ functions _).globals known
    | some reference =>
      rw [statement]
      have inherited := (adds_enterSubclass around token reference _).globals known
      exact (adds_methods _ functions _).globals inherited
  | _ => cases declares

/-! ## Scopes -/

/-- The walk from one state to another leaves the scopes and the known globals as
they are. -/
structure Stays (before after : Resolution) : Prop where
  scopes : after.scopes = before.scopes
  globals : after.globals = before.globals

theorem Stays.refl (walk : Resolution) : Stays walk walk :=
  ⟨rfl, rfl⟩

theorem Stays.trans
    {before middle after : Resolution}
    (one : Stays before middle)
    (other : Stays middle after) :
    Stays before after :=
  ⟨other.scopes.trans one.scopes, other.globals.trans one.globals⟩

/-- Filing changes no scope. -/
theorem stays_file
    (around : Surroundings)
    (reference : Reference)
    (skip : Nat)
    (walk : Resolution) :
    Stays walk (walk.file around reference skip) := by
  unfold file
  split <;> exact ⟨rfl, rfl⟩

/-- Reading a name changes no scope. -/
theorem stays_readName
    (around : Surroundings)
    (reference : Reference)
    (walk : Resolution) :
    Stays walk (walk.readName around reference) := by
  unfold readName
  dsimp only
  split
  · exact stays_file around reference 0 walk
  · split
    · split
      · exact stays_file around reference 1 walk
      · exact ⟨rfl, rfl⟩
    · exact stays_file around reference 0 walk

theorem stays_readSelf
    (around : Surroundings)
    (keyword : Reference)
    (walk : Resolution) :
    Stays walk (walk.readSelf around keyword) := by
  unfold readSelf
  split
  · exact ⟨rfl, rfl⟩
  · exact stays_file around keyword 0 walk
  · exact stays_file around keyword 0 walk

theorem stays_readInherited
    (around : Surroundings)
    (keyword : Reference)
    (walk : Resolution) :
    Stays walk (walk.readInherited around keyword) := by
  unfold readInherited
  split
  · exact ⟨rfl, rfl⟩
  · exact ⟨rfl, rfl⟩
  · exact stays_file around keyword 0 walk

mutual

/-- The walk over an expression changes no scope. -/
theorem stays_expression (around : Surroundings) :
    ∀ (value : Expr) (walk : Resolution), Stays walk (expression around value walk)
  | .literal _, walk => by
    rw [expression]
    exact .refl walk
  | .grouping inner, walk => by
    rw [expression]
    exact stays_expression around inner walk
  | .unary _ right, walk => by
    rw [expression]
    exact stays_expression around right walk
  | .binary left _ right, walk => by
    rw [expression]
    exact (stays_expression around left walk).trans (stays_expression around right _)
  | .logical left _ right, walk => by
    rw [expression]
    exact (stays_expression around left walk).trans (stays_expression around right _)
  | .read target, walk => by
    rw [expression]
    exact stays_readName around target walk
  | .assign target value, walk => by
    rw [expression]
    exact (stays_expression around value walk).trans (stays_file around target 0 _)
  | .call callee _ arguments, walk => by
    rw [expression]
    exact (stays_expression around callee walk).trans (stays_expressions around arguments _)
  | .property object _, walk => by
    rw [expression]
    exact stays_expression around object walk
  | .setProperty object _ value, walk => by
    rw [expression]
    exact (stays_expression around value walk).trans (stays_expression around object _)
  | .self keyword, walk => by
    rw [expression]
    exact stays_readSelf around keyword walk
  | .inherited keyword _, walk => by
    rw [expression]
    exact stays_readInherited around keyword walk

/-- The walk over expressions changes no scope. -/
theorem stays_expressions (around : Surroundings) :
    ∀ (values : List Expr) (walk : Resolution), Stays walk (expressions around values walk)
  | [], walk => by
    rw [expressions]
    exact .refl walk
  | first :: rest, walk => by
    rw [expressions]
    exact (stays_expression around first walk).trans (stays_expressions around rest _)

end

theorem stays_optionalExpression
    (around : Surroundings)
    (value : Option Expr)
    (walk : Resolution) :
    Stays walk (optionalExpression around value walk) := by
  cases value with
  | none => exact .refl walk
  | some value => exact stays_expression around value walk

/-- Bind a name in the innermost of some scopes. -/
def bindName (name : String) : List (Bindings Binding) -> List (Bindings Binding)
  | [] => []
  | scope :: outer => scope.set name .defined :: outer

/-- Bind the name of a declaration in the innermost of some scopes. -/
def bindDeclared
    (name : Option String)
    (scopes : List (Bindings Binding)) : List (Bindings Binding) :=
  match name with
  | none => scopes
  | some name => bindName name scopes

/-- Bind the names of statements in the innermost of some scopes, in order. -/
def bindAll (steps : List Stmt) (scopes : List (Bindings Binding)) : List (Bindings Binding) :=
  steps.foldl (fun scopes step => bindDeclared step.declaredName? scopes) scopes

/-- The scope of a function that binds its parameters. -/
def parameterScope (parameters : List Token) : Bindings Binding :=
  parameters.foldl (fun scope parameter => scope.set parameter.lexeme .defined) .empty

/-- A declared name is bound in the innermost scope. -/
theorem tail_bindDeclared (name : Option String) (scopes : List (Bindings Binding)) :
    (bindDeclared name scopes).tail = scopes.tail := by
  cases name <;> cases scopes <;> rfl

/-- Declared names are bound in the innermost scope. -/
theorem tail_bindAll (steps : List Stmt) (scopes : List (Bindings Binding)) :
    (bindAll steps scopes).tail = scopes.tail := by
  induction steps generalizing scopes with
  | nil => rfl
  | cons first rest inductionHypothesis =>
    rw [bindAll, List.foldl_cons]
    exact (inductionHypothesis _).trans (tail_bindDeclared _ _)

/-- Outside of all scopes nothing is bound. -/
theorem bindAll_nil (steps : List Stmt) : bindAll steps [] = [] := by
  induction steps with
  | nil => rfl
  | cons first rest inductionHypothesis =>
    rw [bindAll, List.foldl_cons]
    cases first.declaredName? <;> exact inductionHypothesis

/-- A name declared and later defined in the same scopes is bound there. -/
theorem scopes_declare_define
    {name : String}
    {walk after : Resolution}
    (same : after.scopes = (walk.declare name).scopes) :
    (after.define name).scopes = bindName name walk.scopes := by
  unfold declare at same
  cases scopes : walk.scopes with
  | nil =>
    rw [scopes] at same
    rw [define, same]
    simpa [bindName, scopes] using same
  | cons scope outer =>
    simp only [scopes] at same
    split at same
    · rw [define, same]
      simp only [scopes, bindName]
    · rw [define, same]
      simp only [bindName, Bindings.set_set]

/-- A name declared and defined at once is bound. -/
theorem scopes_bind (name : String) (walk : Resolution) :
    ((walk.declare name).define name).scopes = bindName name walk.scopes :=
  scopes_declare_define rfl

/-- A function's scope has its parameters. -/
theorem scopes_enterFunction (parameters : List Token) (walk : Resolution) :
    (walk.enterFunction parameters).scopes = parameterScope parameters :: walk.scopes := by
  unfold enterFunction parameterScope
  refine List.foldl_rel (r := fun (inside : Resolution) scope =>
    inside.scopes = scope :: walk.scopes) rfl fun parameter _ inside scope scopes => ?_
  rw [scopes_bind, scopes, bindName]

/-- A subclass's scope has the superclass. -/
theorem scopes_enterSubclass
    (around : Surroundings)
    (name : Token)
    (superclass : Reference)
    (walk : Resolution) :
    (walk.enterSubclass around name superclass).scopes =
      Bindings.empty.set superclassName .defined :: walk.scopes := by
  rw [enterSubclass_eq, enter]
  dsimp only
  rw [(stays_readName _ superclass _).scopes, checkSuperclass]
  split <;> rfl

section Forms

variable {names : Token -> Prop}

mutual

/-- A statement binds its name, if it declares one, and leaves the scopes as they
are otherwise. -/
theorem scopes_statement (around : Surroundings) :
    ∀ (step : Stmt) (walk : Resolution), step.WellFormed names ->
      (statement around step walk).scopes = bindDeclared step.declaredName? walk.scopes
  | .expression value, walk, _ => by
    rw [statement]
    exact (stays_expression around value walk).scopes
  | .print value, walk, _ => by
    rw [statement]
    exact (stays_expression around value walk).scopes
  | .declare name initializer, walk, _ => by
    rw [statement]
    exact scopes_declare_define (stays_optionalExpression around initializer _).scopes
  | .block body, walk, wellFormed => by
    rw [Stmt.WellFormed] at wellFormed
    rw [statement, leave]
    dsimp only
    rw [scopes_statements around body _ wellFormed, tail_bindAll]
    rfl
  | .conditional condition thenBranch elseBranch, walk, wellFormed => by
    rw [Stmt.WellFormed] at wellFormed
    obtain ⟨-, ⟨thenDeclares, thenForm⟩, elseForm⟩ := wellFormed
    rw [statement, scopes_optionalStatement around elseBranch _ elseForm,
      scopes_statement around thenBranch _ thenForm, thenDeclares,
      (stays_expression around condition walk).scopes]
    rfl
  | .loop condition body, walk, wellFormed => by
    rw [Stmt.WellFormed] at wellFormed
    obtain ⟨-, bodyDeclares, bodyForm⟩ := wellFormed
    rw [statement, scopes_statement around body _ bodyForm, bodyDeclares,
      (stays_expression around condition walk).scopes]
    rfl
  | .function declaration, walk, wellFormed => by
    rw [Stmt.WellFormed] at wellFormed
    rw [statement, scopes_function _ declaration _ wellFormed, scopes_bind]
    rfl
  | .returns keyword value, walk, _ => by
    rw [statement, (stays_optionalExpression around value _).scopes]
    split <;> rfl
  | .classDecl name none functions, walk, wellFormed => by
    rw [Stmt.WellFormed] at wellFormed
    rw [statement, leave]
    dsimp only
    rw [scopes_methods _ functions _ wellFormed.2.2, enter]
    dsimp only
    rw [List.tail_cons, scopes_bind]
    rfl
  | .classDecl name (some superclass) functions, walk, wellFormed => by
    rw [Stmt.WellFormed] at wellFormed
    rw [statement, leave, leave]
    dsimp only
    rw [scopes_methods _ functions _ wellFormed.2.2, enter]
    dsimp only
    rw [List.tail_cons, scopes_enterSubclass, List.tail_cons, scopes_bind]
    rfl

/-- Statements bind the names they declare in the innermost scope, in order, and nothing
else. -/
theorem scopes_statements (around : Surroundings) :
    ∀ (steps : List Stmt) (walk : Resolution), Stmt.AllWellFormed names steps ->
      (statements around steps walk).scopes = bindAll steps walk.scopes
  | [], walk, _ => by
    rw [statements]
    rfl
  | first :: rest, walk, wellFormed => by
    rw [Stmt.AllWellFormed] at wellFormed
    rw [statements, scopes_statements around rest _ wellFormed.2,
      scopes_statement around first walk wellFormed.1]
    rfl

/-- A well-formed branch declares nothing. -/
theorem scopes_optionalStatement (around : Surroundings) :
    ∀ (step : Option Stmt) (walk : Resolution), Stmt.OptionWellFormed names step ->
      (optionalStatement around step walk).scopes = walk.scopes
  | none, walk, _ => by
    rw [optionalStatement]
  | some step, walk, wellFormed => by
    rw [Stmt.OptionWellFormed] at wellFormed
    rw [optionalStatement, scopes_statement around step walk wellFormed.2, wellFormed.1]
    rfl

/-- The walk over a function leaves the scopes around it. -/
theorem scopes_function (around : Surroundings) :
    ∀ (declaration : FunctionDecl) (walk : Resolution), declaration.WellFormed names ->
      (function around declaration walk).scopes = walk.scopes
  | ⟨_, parameters, body⟩, walk, wellFormed => by
    rw [FunctionDecl.WellFormed] at wellFormed
    rw [function, leave]
    dsimp only
    rw [scopes_statements around body _ wellFormed.2.2, tail_bindAll, scopes_enterFunction,
      List.tail_cons]

/-- The walk over methods leaves the scopes around them. -/
theorem scopes_methods (around : Surroundings) :
    ∀ (declarations : List FunctionDecl) (walk : Resolution),
      FunctionDecl.AllWellFormed names declarations ->
        (methods around declarations walk).scopes = walk.scopes
  | [], walk, _ => by
    rw [methods]
  | first :: rest, walk, wellFormed => by
    rw [FunctionDecl.AllWellFormed] at wellFormed
    rw [methods, scopes_methods around rest _ wellFormed.2, scopes_function _ first _ wellFormed.1]

end

/-- Statements outside of all scopes make their names known globals. -/
theorem mem_globals_statements
    {walk : Resolution}
    {steps : List Stmt}
    {name : String}
    (around : Surroundings)
    (outside : walk.scopes = [])
    (wellFormed : Stmt.AllWellFormed names steps)
    (declares : name ∈ steps.filterMap Stmt.declaredName?) :
    name ∈ (statements around steps walk).globals := by
  induction steps generalizing walk with
  | nil => exact nomatch declares
  | cons first rest inductionHypothesis =>
    rw [Stmt.AllWellFormed] at wellFormed
    rw [statements]
    have stillOutside : (statement around first walk).scopes = [] := by
      rw [scopes_statement around first walk wellFormed.1, outside]
      cases first.declaredName? <;> rfl
    rw [List.filterMap_cons] at declares
    cases isName : first.declaredName? with
    | none =>
      rw [isName] at declares
      exact inductionHypothesis stillOutside wellFormed.2 declares
    | some declared =>
      rw [isName, List.mem_cons] at declares
      rcases declares with rfl | inRest
      · exact (adds_statements around rest _).globals
          (mem_globals_statement around outside isName)
      · exact inductionHypothesis stillOutside wellFormed.2 inRest

/-- A list of statements is walked part by part. -/
theorem statements_append
    (around : Surroundings)
    (steps more : List Stmt)
    (walk : Resolution) :
    statements around (steps ++ more) walk =
      statements around more (statements around steps walk) := by
  induction steps generalizing walk with
  | nil => rw [List.nil_append, statements]
  | cons first rest inductionHypothesis =>
    rw [List.cons_append, statements, statements, inductionHypothesis]

end Forms

end Resolution
end TreeWalk
