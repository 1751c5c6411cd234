import TreeWalk.Proofs.Resolution.Walk

/-!
# Sites

A site is a part of a program together with the state of the walk when it gets
there.  The walk over a part goes to smaller parts in turn, its children.  This
module says what is known at every site that the walk over a program without
errors gets to: which distances it files there, and which names the scopes bind.
-/

namespace TreeWalk

/-- The parts of programs that name resolution walks over. -/
inductive Part where
  | expression (value : Expr)
  | expressions (values : List Expr)
  | superclass (reference : Reference)
  | statement (step : Stmt)
  | statements (steps : List Stmt)
  | function (declaration : FunctionDecl)
  | methods (declarations : List FunctionDecl)

namespace Part

/-- The numbers of the references in a part. -/
def ids : Part -> List Nat
  | expression value => value.ids
  | expressions values => Expr.listIds values
  | superclass reference => [reference.id]
  | statement step => step.ids
  | statements steps => Stmt.listIds steps
  | function declaration => declaration.ids
  | methods declarations => FunctionDecl.listIds declarations

/-- Whether a part is well-formed. -/
def WellFormed (names : Token -> Prop) : Part -> Prop
  | expression value => value.WellFormed names
  | expressions values => Expr.AllWellFormed names values
  | superclass reference => names reference.name
  | statement step => step.WellFormed names
  | statements steps => Stmt.AllWellFormed names steps
  | function declaration => declaration.WellFormed names
  | methods declarations => FunctionDecl.AllWellFormed names declarations

/-- Whether a part is made of expressions, so that walking over it changes no
scope. -/
def isExpression : Part -> Bool
  | expression _ => true
  | expressions _ => true
  | superclass _ => true
  | _ => false

end Part

/-- A part of a program, what surrounds it, and the state of the walk when it
gets there. -/
structure Site where
  around : Surroundings
  part : Part
  walk : Resolution

namespace Site

/-- The state of the walk after the part. -/
def outcome : Site -> Resolution
  | ⟨around, .expression value, walk⟩ => Resolution.expression around value walk
  | ⟨around, .expressions values, walk⟩ => Resolution.expressions around values walk
  | ⟨around, .superclass reference, walk⟩ => walk.readName around reference
  | ⟨around, .statement step, walk⟩ => Resolution.statement around step walk
  | ⟨around, .statements steps, walk⟩ => Resolution.statements around steps walk
  | ⟨around, .function declaration, walk⟩ => Resolution.function around declaration walk
  | ⟨around, .methods declarations, walk⟩ => Resolution.methods around declarations walk

/-- The site of an expression that may be missing. -/
def ofOption (around : Surroundings) (value : Option Expr) (walk : Resolution) : List Site :=
  match value with
  | none => []
  | some value => [⟨around, .expression value, walk⟩]

/-- The sites that the walk over an expression goes to. -/
def inExpression (around : Surroundings) (walk : Resolution) : Expr -> List Site
  | .literal _ => []
  | .grouping inner => [⟨around, .expression inner, walk⟩]
  | .unary _ right => [⟨around, .expression right, walk⟩]
  | .binary left _ right =>
    [⟨around, .expression left, walk⟩,
      ⟨around, .expression right, Resolution.expression around left walk⟩]
  | .logical left _ right =>
    [⟨around, .expression left, walk⟩,
      ⟨around, .expression right, Resolution.expression around left walk⟩]
  | .read _ => []
  | .assign _ value => [⟨around, .expression value, walk⟩]
  | .call callee _ arguments =>
    [⟨around, .expression callee, walk⟩,
      ⟨around, .expressions arguments, Resolution.expression around callee walk⟩]
  | .property object _ => [⟨around, .expression object, walk⟩]
  | .setProperty object _ value =>
    [⟨around, .expression value, walk⟩,
      ⟨around, .expression object, Resolution.expression around value walk⟩]
  | .self _ => []
  | .inherited _ _ => []

/-- The sites that the walk over a statement goes to. -/
def inStatement (around : Surroundings) (walk : Resolution) : Stmt -> List Site
  | .expression value => [⟨around, .expression value, walk⟩]
  | .print value => [⟨around, .expression value, walk⟩]
  | .declare name initializer => ofOption around initializer (walk.declare name.lexeme)
  | .block body => [⟨around, .statements body, walk.enter .empty⟩]
  | .conditional condition thenBranch elseBranch =>
    let tested := Resolution.expression around condition walk
    ⟨around, .expression condition, walk⟩ :: ⟨around, .statement thenBranch, tested⟩ ::
      match elseBranch with
      | none => []
      | some branch =>
        [⟨around, .statement branch, Resolution.statement around thenBranch tested⟩]
  | .loop condition body =>
    [⟨around, .expression condition, walk⟩,
      ⟨around, .statement body, Resolution.expression around condition walk⟩]
  | .function declaration =>
    [⟨{ around with functionKind := .function }, .function declaration,
      (walk.declare declaration.name.lexeme).define declaration.name.lexeme⟩]
  | .returns keyword value =>
    ofOption around value <|
      if around.functionKind = .none then walk.report keyword .returnAtTopLevel else walk
  | .classDecl name superclass functions =>
    let named := (walk.declare name.lexeme).define name.lexeme
    let self := Bindings.empty.set selfName .defined
    match superclass with
    | none => [⟨{ around with classKind := .plain }, .methods functions, named.enter self⟩]
    | some reference =>
      [⟨{ around with classKind := .subclass }, .superclass reference,
          named.checkSuperclass name reference⟩,
        ⟨{ around with classKind := .subclass }, .methods functions,
          (named.enterSubclass around name reference).enter self⟩]

/-- The sites that the walk over a part goes to. -/
def children : Site -> List Site
  | ⟨around, .expression value, walk⟩ => inExpression around walk value
  | ⟨_, .expressions [], _⟩ => []
  | ⟨around, .expressions (first :: rest), walk⟩ =>
    [⟨around, .expression first, walk⟩,
      ⟨around, .expressions rest, Resolution.expression around first walk⟩]
  | ⟨_, .superclass _, _⟩ => []
  | ⟨around, .statement step, walk⟩ => inStatement around walk step
  | ⟨_, .statements [], _⟩ => []
  | ⟨around, .statements (first :: rest), walk⟩ =>
    [⟨around, .statement first, walk⟩,
      ⟨around, .statements rest, Resolution.statement around first walk⟩]
  | ⟨around, .function declaration, walk⟩ =>
    [⟨around, .statements declaration.body, walk.enterFunction declaration.parameters⟩]
  | ⟨_, .methods [], _⟩ => []
  | ⟨around, .methods (first :: rest), walk⟩ =>
    let inside := { around with functionKind := Resolution.methodKind first.name.lexeme }
    [⟨inside, .function first, walk⟩,
      ⟨around, .methods rest, Resolution.function inside first walk⟩]

/-- The walk over a part gets to another one, directly or through others. -/
inductive Within (root : Site) : Site -> Prop
  | refl : Within root root
  | step
      {site child : Site}
      (before : Within root site)
      (isChild : child ∈ site.children) :
      Within root child

/-- From the first site, the walk goes to the second: there is a case for each form
of a part and each smaller part that it has. -/
inductive Child : Site -> Site -> Prop
  | grouping {around : Surroundings} {walk : Resolution} {inner : Expr} :
      Child ⟨around, .expression (.grouping inner), walk⟩ ⟨around, .expression inner, walk⟩
  | operand {around : Surroundings} {walk : Resolution} {operator : Token} {right : Expr} :
      Child ⟨around, .expression (.unary operator right), walk⟩ ⟨around, .expression right, walk⟩
  | binaryLeft
      {around : Surroundings} {walk : Resolution} {left right : Expr} {operator : Token} :
      Child ⟨around, .expression (.binary left operator right), walk⟩
        ⟨around, .expression left, walk⟩
  | binaryRight
      {around : Surroundings} {walk : Resolution} {left right : Expr} {operator : Token} :
      Child ⟨around, .expression (.binary left operator right), walk⟩
        ⟨around, .expression right, Resolution.expression around left walk⟩
  | logicalLeft
      {around : Surroundings} {walk : Resolution} {left right : Expr} {operator : Token} :
      Child ⟨around, .expression (.logical left operator right), walk⟩
        ⟨around, .expression left, walk⟩
  | logicalRight
      {around : Surroundings} {walk : Resolution} {left right : Expr} {operator : Token} :
      Child ⟨around, .expression (.logical left operator right), walk⟩
        ⟨around, .expression right, Resolution.expression around left walk⟩
  | assigned {around : Surroundings} {walk : Resolution} {target : Reference} {value : Expr} :
      Child ⟨around, .expression (.assign target value), walk⟩ ⟨around, .expression value, walk⟩
  | callee
      {around : Surroundings} {walk : Resolution} {callee : Expr} {paren : Token}
      {arguments : List Expr} :
      Child ⟨around, .expression (.call callee paren arguments), walk⟩
        ⟨around, .expression callee, walk⟩
  | arguments
      {around : Surroundings} {walk : Resolution} {callee : Expr} {paren : Token}
      {arguments : List Expr} :
      Child ⟨around, .expression (.call callee paren arguments), walk⟩
        ⟨around, .expressions arguments, Resolution.expression around callee walk⟩
  | object {around : Surroundings} {walk : Resolution} {object : Expr} {name : Token} :
      Child ⟨around, .expression (.property object name), walk⟩ ⟨around, .expression object, walk⟩
  | valueSet {around : Surroundings} {walk : Resolution} {object value : Expr} {name : Token} :
      Child ⟨around, .expression (.setProperty object name value), walk⟩
        ⟨around, .expression value, walk⟩
  | objectSet {around : Surroundings} {walk : Resolution} {object value : Expr} {name : Token} :
      Child ⟨around, .expression (.setProperty object name value), walk⟩
        ⟨around, .expression object, Resolution.expression around value walk⟩
  | firstExpression
      {around : Surroundings} {walk : Resolution} {first : Expr} {rest : List Expr} :
      Child ⟨around, .expressions (first :: rest), walk⟩ ⟨around, .expression first, walk⟩
  | laterExpressions
      {around : Surroundings} {walk : Resolution} {first : Expr} {rest : List Expr} :
      Child ⟨around, .expressions (first :: rest), walk⟩
        ⟨around, .expressions rest, Resolution.expression around first walk⟩
  | evaluated {around : Surroundings} {walk : Resolution} {value : Expr} :
      Child ⟨around, .statement (.expression value), walk⟩ ⟨around, .expression value, walk⟩
  | printed {around : Surroundings} {walk : Resolution} {value : Expr} :
      Child ⟨around, .statement (.print value), walk⟩ ⟨around, .expression value, walk⟩
  | initializer {around : Surroundings} {walk : Resolution} {name : Token} {value : Expr} :
      Child ⟨around, .statement (.declare name (some value)), walk⟩
        ⟨around, .expression value, walk.declare name.lexeme⟩
  | block {around : Surroundings} {walk : Resolution} {body : List Stmt} :
      Child ⟨around, .statement (.block body), walk⟩ ⟨around, .statements body, walk.enter .empty⟩
  | condition
      {around : Surroundings} {walk : Resolution} {condition : Expr} {thenBranch : Stmt}
      {elseBranch : Option Stmt} :
      Child ⟨around, .statement (.conditional condition thenBranch elseBranch), walk⟩
        ⟨around, .expression condition, walk⟩
  | thenBranch
      {around : Surroundings} {walk : Resolution} {condition : Expr} {thenBranch : Stmt}
      {elseBranch : Option Stmt} :
      Child ⟨around, .statement (.conditional condition thenBranch elseBranch), walk⟩
        ⟨around, .statement thenBranch, Resolution.expression around condition walk⟩
  | elseBranch
      {around : Surroundings} {walk : Resolution} {condition : Expr} {thenBranch branch : Stmt} :
      Child ⟨around, .statement (.conditional condition thenBranch (some branch)), walk⟩
        ⟨around, .statement branch, Resolution.statement around thenBranch
          (Resolution.expression around condition walk)⟩
  | loopCondition {around : Surroundings} {walk : Resolution} {condition : Expr} {body : Stmt} :
      Child ⟨around, .statement (.loop condition body), walk⟩ ⟨around, .expression condition, walk⟩
  | loopBody {around : Surroundings} {walk : Resolution} {condition : Expr} {body : Stmt} :
      Child ⟨around, .statement (.loop condition body), walk⟩
        ⟨around, .statement body, Resolution.expression around condition walk⟩
  | function {around : Surroundings} {walk : Resolution} {declaration : FunctionDecl} :
      Child ⟨around, .statement (.function declaration), walk⟩
        ⟨{ around with functionKind := .function }, .function declaration,
          (walk.declare declaration.name.lexeme).define declaration.name.lexeme⟩
  | returned {around : Surroundings} {walk : Resolution} {keyword : Token} {value : Expr} :
      Child ⟨around, .statement (.returns keyword (some value)), walk⟩
        ⟨around, .expression value,
          if around.functionKind = .none then walk.report keyword .returnAtTopLevel else walk⟩
  | classMethods
      {around : Surroundings} {walk : Resolution} {name : Token} {functions : List FunctionDecl} :
      Child ⟨around, .statement (.classDecl name none functions), walk⟩
        ⟨{ around with classKind := .plain }, .methods functions,
          ((walk.declare name.lexeme).define name.lexeme).enter
            (Bindings.empty.set selfName .defined)⟩
  | superclass
      {around : Surroundings} {walk : Resolution} {name : Token} {reference : Reference}
      {functions : List FunctionDecl} :
      Child ⟨around, .statement (.classDecl name (some reference) functions), walk⟩
        ⟨{ around with classKind := .subclass }, .superclass reference,
          ((walk.declare name.lexeme).define name.lexeme).checkSuperclass name reference⟩
  | subclassMethods
      {around : Surroundings} {walk : Resolution} {name : Token} {reference : Reference}
      {functions : List FunctionDecl} :
      Child ⟨around, .statement (.classDecl name (some reference) functions), walk⟩
        ⟨{ around with classKind := .subclass }, .methods functions,
          (((walk.declare name.lexeme).define name.lexeme).enterSubclass around name
            reference).enter (Bindings.empty.set selfName .defined)⟩
  | firstStatement
      {around : Surroundings} {walk : Resolution} {first : Stmt} {rest : List Stmt} :
      Child ⟨around, .statements (first :: rest), walk⟩ ⟨around, .statement first, walk⟩
  | laterStatements
      {around : Surroundings} {walk : Resolution} {first : Stmt} {rest : List Stmt} :
      Child ⟨around, .statements (first :: rest), walk⟩
        ⟨around, .statements rest, Resolution.statement around first walk⟩
  | body
      {around : Surroundings} {walk : Resolution} {name : Token} {parameters : List Token}
      {body : List Stmt} :
      Child ⟨around, .function ⟨name, parameters, body⟩, walk⟩
        ⟨around, .statements body, walk.enterFunction parameters⟩
  | firstMethod
      {around : Surroundings} {walk : Resolution} {first : FunctionDecl}
      {rest : List FunctionDecl} :
      Child ⟨around, .methods (first :: rest), walk⟩
        ⟨{ around with functionKind := Resolution.methodKind first.name.lexeme },
          .function first, walk⟩
  | laterMethods
      {around : Surroundings} {walk : Resolution} {first : FunctionDecl}
      {rest : List FunctionDecl} :
      Child ⟨around, .methods (first :: rest), walk⟩
        ⟨around, .methods rest, Resolution.function
          { around with functionKind := Resolution.methodKind first.name.lexeme } first walk⟩

/-- The parts of an expression are its children. -/
theorem child_of_mem_inExpression
    {around : Surroundings}
    {walk : Resolution}
    {value : Expr}
    {child : Site}
    (isChild : child ∈ inExpression around walk value) :
    Child ⟨around, .expression value, walk⟩ child := by
  cases value with
  | literal | read | self | inherited => simp [inExpression] at isChild
  | grouping | unary | assign | property =>
    rw [inExpression, List.mem_singleton] at isChild
    subst isChild
    constructor
  | binary | logical | call | setProperty =>
    rw [inExpression, List.mem_cons, List.mem_singleton] at isChild
    rcases isChild with rfl | rfl <;> constructor

/-- The parts of a statement are its children. -/
theorem child_of_mem_inStatement
    {around : Surroundings}
    {walk : Resolution}
    {step : Stmt}
    {child : Site}
    (isChild : child ∈ inStatement around walk step) :
    Child ⟨around, .statement step, walk⟩ child := by
  cases step with
  | expression | print | block | function =>
    rw [inStatement, List.mem_singleton] at isChild
    subst isChild
    constructor
  | declare name initializer =>
    cases initializer with
    | none => simp [inStatement, ofOption] at isChild
    | some value =>
      rw [inStatement, ofOption, List.mem_singleton] at isChild
      exact isChild ▸ .initializer
  | conditional condition thenBranch elseBranch =>
    cases elseBranch with
    | none =>
      simp only [inStatement, List.mem_cons, List.not_mem_nil, or_false] at isChild
      rcases isChild with rfl | rfl <;> constructor
    | some branch =>
      simp only [inStatement, List.mem_cons, List.not_mem_nil, or_false] at isChild
      rcases isChild with rfl | rfl | rfl <;> constructor
  | loop =>
    rw [inStatement, List.mem_cons, List.mem_singleton] at isChild
    rcases isChild with rfl | rfl <;> constructor
  | returns keyword value =>
    cases value with
    | none => simp [inStatement, ofOption] at isChild
    | some value =>
      rw [inStatement, ofOption, List.mem_singleton] at isChild
      exact isChild ▸ .returned
  | classDecl name superclass functions =>
    cases superclass with
    | none =>
      rw [inStatement, List.mem_singleton] at isChild
      exact isChild ▸ .classMethods
    | some reference =>
      rw [inStatement, List.mem_cons, List.mem_singleton] at isChild
      rcases isChild with rfl | rfl <;> constructor

/-- Every listed part is a child. -/
theorem child_of_mem_children
    {site child : Site}
    (isChild : child ∈ site.children) :
    Child site child := by
  obtain ⟨around, part, walk⟩ := site
  cases part with
  | expression value => exact child_of_mem_inExpression isChild
  | superclass reference => simp [children] at isChild
  | statement step => exact child_of_mem_inStatement isChild
  | function declaration =>
    obtain ⟨name, parameters, body⟩ := declaration
    rw [children, List.mem_singleton] at isChild
    exact isChild ▸ .body
  | expressions parts | statements parts | methods parts =>
    cases parts with
    | nil => simp [children] at isChild
    | cons first rest =>
      rw [children, List.mem_cons, List.mem_singleton] at isChild
      rcases isChild with rfl | rfl <;> constructor

/-! ## The walk over a part -/

/-- The walk over a part adds what that part refers to. -/
theorem adds_outcome (site : Site) :
    Resolution.Adds site.around.functionKind site.part.ids site.walk site.outcome := by
  obtain ⟨around, part, walk⟩ := site
  cases part with
  | expression value => exact Resolution.adds_expression around value walk
  | expressions values => exact Resolution.adds_expressions around values walk
  | superclass reference => exact Resolution.adds_readName around reference walk
  | statement step => exact Resolution.adds_statement around step walk
  | statements steps => exact Resolution.adds_statements around steps walk
  | function declaration => exact Resolution.adds_function around declaration walk
  | methods declarations => exact Resolution.adds_methods around declarations walk

/-- The walk over a part goes to a child: before it and after it, the walk files
only references of the part outside of the child. -/
structure Covers (site child : Site) (before after : List Nat) : Prop where
  reached : Resolution.Adds site.around.functionKind before site.walk child.walk
  left : Resolution.Adds site.around.functionKind after child.outcome site.outcome
  ids : (before ++ (child.part.ids ++ after)).Perm site.part.ids

/-- The references of a part are those of its child with some before and some after. -/
theorem Child.covers
    {site child : Site}
    (isChild : Child site child) :
    ∃ before after, Covers site child before after := by
  cases isChild with
  | grouping | operand | object =>
    exact ⟨[], [], .refl _, .refl _, by simp [Part.ids, Expr.ids]⟩
  | @binaryLeft around walk left right | @logicalLeft around walk left right =>
    exact ⟨[], right.ids, .refl walk, Resolution.adds_expression around right _,
      by simp [Part.ids, Expr.ids]⟩
  | @binaryRight around walk left right | @logicalRight around walk left right =>
    exact ⟨left.ids, [], Resolution.adds_expression around left walk, .refl _,
      by simp [Part.ids, Expr.ids]⟩
  | @assigned around walk target value =>
    exact ⟨[], [target.id], .refl walk, Resolution.adds_file around target 0 _,
      by simp [Part.ids, Expr.ids]⟩
  | @callee around walk callee paren arguments =>
    exact ⟨[], Expr.listIds arguments, .refl walk, Resolution.adds_expressions around arguments _,
      by simp [Part.ids, Expr.ids]⟩
  | @arguments around walk callee paren arguments =>
    exact ⟨callee.ids, [], Resolution.adds_expression around callee walk, .refl _,
      by simp [Part.ids, Expr.ids]⟩
  -- The value is walked before the object, whose numbers come first.
  | @valueSet around walk object value =>
    refine ⟨[], object.ids, .refl walk, Resolution.adds_expression around object _, ?_⟩
    simpa [Part.ids, Expr.ids] using List.perm_append_comm
  | @objectSet around walk object value =>
    refine ⟨value.ids, [], Resolution.adds_expression around value walk, .refl _, ?_⟩
    simpa [Part.ids, Expr.ids] using List.perm_append_comm
  | @firstExpression around walk first rest =>
    exact ⟨[], Expr.listIds rest, .refl walk, Resolution.adds_expressions around rest _,
      by simp [Part.ids, Expr.listIds]⟩
  | @laterExpressions around walk first rest =>
    exact ⟨first.ids, [], Resolution.adds_expression around first walk, .refl _,
      by simp [Part.ids, Expr.listIds]⟩
  | evaluated | printed => exact ⟨[], [], .refl _, .refl _, by simp [Part.ids, Stmt.ids]⟩
  | @initializer around walk name value =>
    exact ⟨[], [], Resolution.adds_declare name.lexeme walk,
      Resolution.adds_define name.lexeme _, by simp [Part.ids, Stmt.ids, Expr.optionIds]⟩
  | block =>
    exact ⟨[], [], Resolution.adds_enter .empty _, Resolution.adds_leave _,
      by simp [Part.ids, Stmt.ids]⟩
  | @condition around walk condition thenBranch elseBranch =>
    exact ⟨[], thenBranch.ids ++ Stmt.optionIds elseBranch, .refl walk,
      (Resolution.adds_statement around thenBranch _).trans
        (Resolution.adds_optionalStatement around elseBranch _),
      by simp [Part.ids, Stmt.ids]⟩
  | @thenBranch around walk condition thenBranch elseBranch =>
    exact ⟨condition.ids, Stmt.optionIds elseBranch,
      Resolution.adds_expression around condition walk,
      Resolution.adds_optionalStatement around elseBranch _, by simp [Part.ids, Stmt.ids]⟩
  | @elseBranch around walk condition thenBranch branch =>
    exact ⟨condition.ids ++ thenBranch.ids, [],
      (Resolution.adds_expression around condition walk).trans
        (Resolution.adds_statement around thenBranch _),
      .refl _, by simp [Part.ids, Stmt.ids, Stmt.optionIds]⟩
  | @loopCondition around walk condition body =>
    exact ⟨[], body.ids, .refl walk, Resolution.adds_statement around body _,
      by simp [Part.ids, Stmt.ids]⟩
  | @loopBody around walk condition body =>
    exact ⟨condition.ids, [], Resolution.adds_expression around condition walk, .refl _,
      by simp [Part.ids, Stmt.ids]⟩
  | @function around walk declaration =>
    exact ⟨[], [], Resolution.adds_bind declaration.name.lexeme walk, .refl _,
      by simp [Part.ids, Stmt.ids]⟩
  | returned =>
    refine ⟨[], [], ?_, .refl _, by simp [Part.ids, Stmt.ids, Expr.optionIds]⟩
    dsimp only
    split
    · exact Resolution.adds_report _ _ _
    · exact .refl _
  | @classMethods around walk name functions =>
    exact ⟨[], [], (Resolution.adds_bind name.lexeme walk).andThen (Resolution.adds_enter _ _),
      Resolution.adds_leave _, by simp [Part.ids, Stmt.ids, Reference.optionIds]⟩
  -- Behind the superclass the walk enters two scopes for the methods, and leaves them again.
  | @superclass around walk name reference functions =>
    refine ⟨[], [] ++ FunctionDecl.listIds functions,
      (Resolution.adds_bind name.lexeme walk).andThen
        (Resolution.adds_checkSuperclass name reference _), ?_,
      by simp [Part.ids, Stmt.ids, Reference.optionIds]⟩
    have inside := Resolution.adds_methods { around with classKind := .subclass } functions
      ((((walk.declare name.lexeme).define name.lexeme).enterSubclass around name
        reference).enter (Bindings.empty.set selfName .defined))
    refine ((Resolution.Adds.trans ?_ inside).andThen (Resolution.adds_leave _)).andThen
      (Resolution.adds_leave _)
    exact (Resolution.adds_enter _ _).andThen (Resolution.adds_enter _ _)
  | @subclassMethods around walk name reference functions =>
    refine ⟨[reference.id], [], ?_, ?_, by simp [Part.ids, Stmt.ids, Reference.optionIds]⟩
    · exact ((Resolution.adds_bind name.lexeme walk).trans
        (Resolution.adds_enterSubclass around name reference _)).andThen
          (Resolution.adds_enter _ _)
    · exact (Resolution.adds_leave _).andThen (Resolution.adds_leave _)
  | @firstStatement around walk first rest =>
    exact ⟨[], Stmt.listIds rest, .refl walk, Resolution.adds_statements around rest _,
      by simp [Part.ids, Stmt.listIds]⟩
  | @laterStatements around walk first rest =>
    exact ⟨first.ids, [], Resolution.adds_statement around first walk, .refl _,
      by simp [Part.ids, Stmt.listIds]⟩
  | @body around walk name parameters body =>
    exact ⟨[], [], Resolution.adds_enterFunction parameters walk, Resolution.adds_leave _,
      by simp [Part.ids, FunctionDecl.ids]⟩
  | @firstMethod around walk first rest =>
    exact ⟨[], FunctionDecl.listIds rest, .refl walk, Resolution.adds_methods around rest _,
      by simp [Part.ids, FunctionDecl.listIds]⟩
  | @laterMethods around walk first rest =>
    have inside := Resolution.adds_function
      { around with functionKind := Resolution.methodKind first.name.lexeme } first walk
    exact ⟨first.ids, [], inside.ofFunction (Resolution.methodKind_ne_none _), .refl _,
      by simp [Part.ids, FunctionDecl.listIds]⟩

/-- The parts of a well-formed part are well formed. -/
theorem Child.wellFormed
    {names : Token -> Prop}
    {site child : Site}
    (isChild : Child site child)
    (wellFormed : site.part.WellFormed names) :
    child.part.WellFormed names := by
  cases isChild with
  | grouping | operand | object =>
    rw [Part.WellFormed, Expr.WellFormed] at wellFormed
    exact wellFormed
  | binaryLeft | logicalLeft | callee | objectSet =>
    rw [Part.WellFormed, Expr.WellFormed] at wellFormed
    exact wellFormed.1
  | binaryRight | logicalRight | assigned | arguments | valueSet =>
    rw [Part.WellFormed, Expr.WellFormed] at wellFormed
    exact wellFormed.2
  | firstExpression =>
    rw [Part.WellFormed, Expr.AllWellFormed] at wellFormed
    exact wellFormed.1
  | laterExpressions =>
    rw [Part.WellFormed, Expr.AllWellFormed] at wellFormed
    exact wellFormed.2
  | evaluated | printed | block | function | returned =>
    rw [Part.WellFormed, Stmt.WellFormed] at wellFormed
    exact wellFormed
  | condition | loopCondition =>
    rw [Part.WellFormed, Stmt.WellFormed] at wellFormed
    exact wellFormed.1
  | initializer =>
    rw [Part.WellFormed, Stmt.WellFormed] at wellFormed
    exact wellFormed.2
  | loopBody | classMethods | subclassMethods =>
    rw [Part.WellFormed, Stmt.WellFormed] at wellFormed
    exact wellFormed.2.2
  | thenBranch =>
    rw [Part.WellFormed, Stmt.WellFormed] at wellFormed
    exact wellFormed.2.1.2
  | elseBranch =>
    rw [Part.WellFormed, Stmt.WellFormed, Stmt.OptionWellFormed] at wellFormed
    exact wellFormed.2.2.2
  | superclass =>
    rw [Part.WellFormed, Stmt.WellFormed] at wellFormed
    exact wellFormed.2.1
  | firstStatement =>
    rw [Part.WellFormed, Stmt.AllWellFormed] at wellFormed
    exact wellFormed.1
  | laterStatements =>
    rw [Part.WellFormed, Stmt.AllWellFormed] at wellFormed
    exact wellFormed.2
  | body =>
    rw [Part.WellFormed, FunctionDecl.WellFormed] at wellFormed
    exact wellFormed.2.2
  | firstMethod =>
    rw [Part.WellFormed, FunctionDecl.AllWellFormed] at wellFormed
    exact wellFormed.1
  | laterMethods =>
    rw [Part.WellFormed, FunctionDecl.AllWellFormed] at wellFormed
    exact wellFormed.2

/-- A site at which nothing goes wrong: the references of the part have different
numbers, under which nothing is filed yet, and the walk over it finds no
error. -/
structure Sound (site : Site) : Prop where
  distinct : site.part.ids.Nodup
  fresh : ∀ id ∈ site.part.ids, site.walk.distances[id]? = none
  unlisted : ∀ id ∈ site.part.ids, id ∉ site.walk.topLevel
  clean : site.outcome.errors.size = 0
  wellFormed : site.part.WellFormed Token.IsName

/-- The walk has found no error when it gets to a sound site. -/
theorem Sound.noErrors
    {site : Site}
    (sound : Sound site) :
    site.walk.errors.size = 0 := by
  have kept := site.adds_outcome.errors
  rw [sound.clean] at kept
  exact Nat.le_zero.mp kept

/-- With distinct references, those of a child occur nowhere else in the part. -/
theorem Covers.disjoint
    {site child : Site}
    {before after : List Nat}
    (covers : Covers site child before after)
    (distinct : site.part.ids.Nodup)
    {id : Nat}
    (member : id ∈ child.part.ids) :
    id ∉ before ∧ id ∉ after ∧ id ∈ site.part.ids := by
  have split := covers.ids.nodup_iff.mpr distinct
  rw [List.nodup_append, List.nodup_append] at split
  obtain ⟨-, ⟨-, -, notAfter⟩, notBefore⟩ := split
  refine ⟨fun earlier => ?_, fun later => ?_, covers.ids.mem_iff.mp (by simp [member])⟩
  · exact notBefore id earlier id (by simp [member]) rfl
  · exact notAfter id member id later rfl

/-- The parts of a sound part are sound. -/
theorem Sound.child
    {site child : Site}
    (sound : Sound site)
    (isChild : child ∈ site.children) :
    Sound child := by
  obtain ⟨before, after, covers⟩ := (child_of_mem_children isChild).covers
  refine ⟨?_, fun id member => ?_, fun id member => ?_, ?_,
    (child_of_mem_children isChild).wellFormed sound.wellFormed⟩
  · have split := covers.ids.nodup_iff.mpr sound.distinct
    rw [List.nodup_append, List.nodup_append] at split
    exact split.2.1.1
  · obtain ⟨notBefore, -, inside⟩ := covers.disjoint sound.distinct member
    rw [covers.reached.distances id notBefore]
    exact sound.fresh id inside
  · obtain ⟨notBefore, -, inside⟩ := covers.disjoint sound.distinct member
    rw [covers.reached.topLevel id notBefore]
    exact sound.unlisted id inside
  · have kept := covers.left.errors
    rw [sound.clean] at kept
    exact Nat.le_zero.mp kept

section Reached

variable {root site : Site}

/-- Every part of a sound root is sound. -/
theorem Within.sound
    (within : Within root site)
    (sound : Sound root) :
    Sound site := by
  induction within with
  | refl => exact sound
  | step _ isChild inductionHypothesis => exact inductionHypothesis.child isChild

/-- What is filed at a site stays filed. -/
theorem Within.filed
    (within : Within root site)
    (sound : Sound root)
    {id : Nat}
    (member : id ∈ site.part.ids) :
    root.outcome.distances[id]? = site.outcome.distances[id]? ∧
      (id ∈ root.outcome.topLevel ↔ id ∈ site.outcome.topLevel) := by
  induction within with
  | refl => exact ⟨rfl, Iff.rfl⟩
  | step within isChild inductionHypothesis =>
    obtain ⟨before, after, covers⟩ := (child_of_mem_children isChild).covers
    obtain ⟨-, notAfter, inside⟩ := covers.disjoint (within.sound sound).distinct member
    obtain ⟨sameDistance, sameListing⟩ := inductionHypothesis inside
    rw [sameDistance, sameListing]
    exact ⟨covers.left.distances id notAfter, covers.left.topLevel id notAfter⟩

/-- The references of a part are among those of the root. -/
theorem Within.ids_subset
    (within : Within root site)
    (sound : Sound root) :
    site.part.ids ⊆ root.part.ids := by
  induction within with
  | refl => exact List.Subset.refl _
  | step within isChild inductionHypothesis =>
    intro id member
    obtain ⟨before, after, covers⟩ := (child_of_mem_children isChild).covers
    exact inductionHypothesis (covers.disjoint (within.sound sound).distinct member).2.2

/-- References inside of functions are not listed as outside of all functions. -/
theorem Within.not_mem_topLevel
    (within : Within root site)
    (sound : Sound root)
    (inside : site.around.functionKind ≠ .none)
    {id : Nat}
    (member : id ∈ site.part.ids) :
    id ∉ root.outcome.topLevel := by
  rw [(within.filed sound member).2, site.adds_outcome.inFunction inside]
  exact (within.sound sound).unlisted id member

end Reached

end Site
end TreeWalk
