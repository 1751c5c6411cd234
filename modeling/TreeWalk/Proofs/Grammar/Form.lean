import TreeWalk.Proofs.Grammar

/-!
# The form of derived trees

The branches of a conditional and the body of a loop are never declarations, so
whether a name gets bound does not depend on how a program runs.  If the tokens
are spelled as a scan leaves them, then declared names are no reserved words, and
`this` and `super` are written with these words.
-/

namespace TreeWalk

/-- A name that is not a reserved word. -/
def Token.IsName (token : Token) : Prop :=
  Keyword.ofText? token.lexeme = none

section Forms

variable (names : Token -> Prop)

/-- Reserved words are spelled as such, and identifiers are of the given
names. -/
def Token.WellSpelled (token : Token) : Prop :=
  match token.kind with
  | .keyword keyword => token.lexeme = keyword.text
  | .identifier => names token
  | _ => True

variable {names}

/-- An identifier that is well spelled is a name. -/
theorem Token.WellSpelled.isName
    {token : Token}
    (spelled : token.WellSpelled names)
    (isIdentifier : token.kind = .identifier) :
    names token := by
  rw [Token.WellSpelled, isIdentifier] at spelled
  exact spelled

/-- More identifiers may count as names. -/
theorem Token.WellSpelled.imp
    {token : Token}
    {others : Token -> Prop}
    (spelled : token.WellSpelled names)
    (implies : names token -> others token) :
    token.WellSpelled others := by
  unfold Token.WellSpelled at spelled ⊢
  split
  · rename_i isKeyword
    rw [isKeyword] at spelled
    exact spelled
  · rename_i isIdentifier
    rw [isIdentifier] at spelled
    exact implies spelled
  · trivial

/-- A keyword that is well spelled has the text of the keyword. -/
theorem Token.WellSpelled.lexeme_eq
    {token : Token}
    {keyword : Keyword}
    (spelled : token.WellSpelled names)
    (isKeyword : token.kind = .keyword keyword) :
    token.lexeme = keyword.text := by
  rw [Token.WellSpelled, isKeyword] at spelled
  exact spelled

variable (names)

mutual

/-- The names in an expression are of the given ones, and `this` and `super` are
written as such. -/
def Expr.WellFormed : Expr -> Prop
  | .literal _ => True
  | .grouping inner => inner.WellFormed
  | .unary _ right => right.WellFormed
  | .binary left _ right => left.WellFormed ∧ right.WellFormed
  | .logical left _ right => left.WellFormed ∧ right.WellFormed
  | .read target => names target.name
  | .assign target value => names target.name ∧ value.WellFormed
  | .call callee _ arguments => callee.WellFormed ∧ Expr.AllWellFormed arguments
  | .property object _ => object.WellFormed
  | .setProperty object _ value => object.WellFormed ∧ value.WellFormed
  | .self keyword => keyword.name.lexeme = selfName
  | .inherited keyword _ => keyword.name.lexeme = superclassName

/-- All expressions of a list are well-formed. -/
def Expr.AllWellFormed : List Expr -> Prop
  | [] => True
  | first :: rest => first.WellFormed ∧ Expr.AllWellFormed rest

end

/-- An expression that may be missing is well-formed. -/
def Expr.OptionWellFormed : Option Expr -> Prop
  | none => True
  | some value => value.WellFormed names

/-- The name of a superclass that may be missing is a name. -/
def Reference.OptionWellFormed : Option Reference -> Prop
  | none => True
  | some reference => names reference.name

/-- The name that a statement adds to the scope around it. -/
def Stmt.declaredName? : Stmt -> Option String
  | .declare name _ => some name.lexeme
  | .function declaration => some declaration.name.lexeme
  | .classDecl name _ _ => some name.lexeme
  | _ => none

mutual

/-- The parts of a statement that may be left out or repeated declare nothing,
and what is declared are names. -/
def Stmt.WellFormed : Stmt -> Prop
  | .expression value => value.WellFormed names
  | .print value => value.WellFormed names
  | .declare name initializer => names name ∧ Expr.OptionWellFormed names initializer
  | .block body => Stmt.AllWellFormed body
  | .conditional condition thenBranch elseBranch =>
    condition.WellFormed names ∧ (thenBranch.declaredName? = none ∧ thenBranch.WellFormed) ∧
      Stmt.OptionWellFormed elseBranch
  | .loop condition body =>
    condition.WellFormed names ∧ body.declaredName? = none ∧ body.WellFormed
  | .function declaration => declaration.WellFormed
  | .returns _ value => Expr.OptionWellFormed names value
  | .classDecl name superclass methods =>
    names name ∧ Reference.OptionWellFormed names superclass ∧ FunctionDecl.AllWellFormed methods

/-- All statements of a list are well-formed. -/
def Stmt.AllWellFormed : List Stmt -> Prop
  | [] => True
  | first :: rest => first.WellFormed ∧ Stmt.AllWellFormed rest

/-- A branch that may be missing is well-formed and declares nothing. -/
def Stmt.OptionWellFormed : Option Stmt -> Prop
  | none => True
  | some branch => branch.declaredName? = none ∧ branch.WellFormed

/-- The name and the parameters of a function are names, and its statements are
well-formed. -/
def FunctionDecl.WellFormed : FunctionDecl -> Prop
  | ⟨name, parameters, body⟩ =>
    names name ∧ (∀ parameter ∈ parameters, names parameter) ∧ Stmt.AllWellFormed body

/-- All functions of a list are well-formed. -/
def FunctionDecl.AllWellFormed : List FunctionDecl -> Prop
  | [] => True
  | first :: rest => first.WellFormed ∧ FunctionDecl.AllWellFormed rest

end

attribute [simp] Expr.WellFormed Expr.AllWellFormed Stmt.WellFormed Stmt.AllWellFormed
  Stmt.OptionWellFormed FunctionDecl.WellFormed FunctionDecl.AllWellFormed

variable {names}

/-- Expressions are well-formed together if each of them is. -/
theorem Expr.allWellFormed_iff
    {expressions : List Expr} :
    Expr.AllWellFormed names expressions ↔
      ∀ expression ∈ expressions, expression.WellFormed names := by
  induction expressions with
  | nil => simp [Expr.AllWellFormed]
  | cons first rest inductionHypothesis =>
    simp [Expr.AllWellFormed, inductionHypothesis]

/-- Statements are well-formed together if each of them is. -/
theorem Stmt.allWellFormed_iff
    {statements : List Stmt} :
    Stmt.AllWellFormed names statements ↔
      ∀ statement ∈ statements, statement.WellFormed names := by
  induction statements with
  | nil => simp [Stmt.AllWellFormed]
  | cons first rest inductionHypothesis =>
    simp [Stmt.AllWellFormed, inductionHypothesis]

/-- Functions are well-formed together if each of them is. -/
theorem FunctionDecl.allWellFormed_iff
    {functions : List FunctionDecl} :
    FunctionDecl.AllWellFormed names functions ↔
      ∀ function ∈ functions, function.WellFormed names := by
  induction functions with
  | nil => simp [FunctionDecl.AllWellFormed]
  | cons first rest inductionHypothesis =>
    simp [FunctionDecl.AllWellFormed, inductionHypothesis]

namespace Grammar

/-- Whatever a category derives from well-spelled tokens has a property. -/
def Yields
    {α : Type}
    (names : Token -> Prop)
    (property : α -> Prop)
    (phrase : Phrase α) : Prop :=
  ∀ ⦃first tokens result next⦄, phrase first tokens result next ->
    (∀ token ∈ tokens, token.WellSpelled names) -> property result

section Lists

variable {α : Type} {property : α -> Prop} {item : Phrase α}

/-- If every item has a property, then so do all items of a repetition. -/
theorem repeated_yields
    (items : Yields names property item) :
    Yields names (fun results => ∀ result ∈ results, property result) (Repeated item) := by
  intro first tokens results next derived spelled
  induction derived with
  | none => simp
  | more before one inductionHypothesis =>
    rw [List.forall_mem_append] at spelled
    rw [List.forall_mem_append, List.forall_mem_singleton]
    exact ⟨inductionHypothesis spelled.1, items one spelled.2⟩

/-- If every item has a property, then so do all items of a list with commas. -/
theorem separated_yields
    (items : Yields names property item) :
    Yields names (fun results => ∀ result ∈ results, property result) (Separated item) := by
  intro first tokens results next derived spelled
  induction derived with
  | single only =>
    rw [List.forall_mem_singleton]
    exact items only spelled
  | more before isComma one inductionHypothesis =>
    rw [List.forall_mem_append, List.forall_mem_cons] at spelled
    rw [List.forall_mem_append, List.forall_mem_singleton]
    exact ⟨inductionHypothesis spelled.1, items one spelled.2.2⟩

/-- If every item has a property, then so do all items of a list in parentheses. -/
theorem listed_yields
    (items : Yields names property item) :
    Yields names (fun results => ∀ result ∈ results.1, property result) (Listed item) := by
  intro first tokens results next derived spelled
  cases derived with
  | none isClosing => simp
  | some inner few isClosing =>
    rw [List.forall_mem_append] at spelled
    exact separated_yields items inner spelled.1

end Lists

/-- A well-spelled identifier yields a name. -/
theorem identifier_yields : Yields names names (Terminal .identifier) := by
  rintro first tokens result next ⟨hasKind⟩ spelled
  rw [List.forall_mem_singleton] at spelled
  exact spelled.isName hasKind

/-- An expression that may be missing is well-formed. -/
theorem optional_yields
    {expression : Phrase Expr}
    (expressions : Yields names (Expr.WellFormed names) expression) :
    Yields names (Expr.OptionWellFormed names) (Optional expression) := by
  intro first tokens result next derived spelled
  cases derived with
  | none => trivial
  | some only => exact expressions only spelled

section Expressions

variable {operand expression : Phrase Expr}

/-- A primary expression is well-formed if the expressions inside of it are. -/
theorem primary_yields
    (expressions : Yields names (Expr.WellFormed names) expression) :
    Yields names (Expr.WellFormed names) (Primary expression) := by
  intro first tokens result next derived spelled
  cases derived with
  | literal found =>
    rw [Expr.WellFormed]
    trivial
  | name isName =>
    rw [List.forall_mem_singleton] at spelled
    rw [Expr.WellFormed]
    exact spelled.isName isName
  | self isKeyword =>
    rw [List.forall_mem_singleton] at spelled
    rw [Expr.WellFormed]
    exact spelled.lexeme_eq isKeyword
  | inherited isKeyword isDot isName =>
    rw [List.forall_mem_cons] at spelled
    rw [Expr.WellFormed]
    exact spelled.1.lexeme_eq isKeyword
  | grouping isOpening inside isClosing =>
    rw [List.forall_mem_cons, List.forall_mem_append] at spelled
    rw [Expr.WellFormed]
    exact expressions inside spelled.2.1

/-- So is a chain of calls and properties. -/
theorem call_yields
    (expressions : Yields names (Expr.WellFormed names) expression) :
    Yields names (Expr.WellFormed names) (Call expression) := by
  intro first tokens result next derived spelled
  induction derived with
  | primary only => exact primary_yields expressions only spelled
  | call before isOpening inside inductionHypothesis =>
    rw [List.forall_mem_append, List.forall_mem_cons] at spelled
    rw [Expr.WellFormed, Expr.allWellFormed_iff]
    exact ⟨inductionHypothesis spelled.1, listed_yields expressions inside spelled.2.2⟩
  | property before isDot isName inductionHypothesis =>
    rw [List.forall_mem_append] at spelled
    rw [Expr.WellFormed]
    exact inductionHypothesis spelled.1

/-- So is a unary expression. -/
theorem unary_yields
    (operands : Yields names (Expr.WellFormed names) operand)
    (expressions : Yields names (Expr.WellFormed names) expression) :
    Yields names (Expr.WellFormed names) (Unary operand expression) := by
  intro first tokens result next derived spelled
  cases derived with
  | operator isOperator inside =>
    rw [List.forall_mem_cons] at spelled
    rw [Expr.WellFormed]
    exact operands inside spelled.2
  | call only => exact call_yields expressions only spelled

/-- A chain of operators is well-formed if combining two operands keeps this. -/
theorem leftAssociative_yields
    {operators : List Token.Kind}
    {combine : Expr -> Token -> Expr -> Expr}
    (combined : ∀ left operator right, left.WellFormed names -> right.WellFormed names ->
      (combine left operator right).WellFormed names)
    (operands : Yields names (Expr.WellFormed names) operand) :
    Yields names (Expr.WellFormed names) (LeftAssociative operators combine operand) := by
  intro first tokens result next derived spelled
  induction derived with
  | operand only => exact operands only spelled
  | combined before isOperator after inductionHypothesis =>
    rw [List.forall_mem_append, List.forall_mem_cons] at spelled
    exact combined _ _ _ (inductionHypothesis spelled.1) (operands after spelled.2.2)

theorem binary_wellFormed
    (left : Expr)
    (operator : Token)
    (right : Expr)
    (leftForm : left.WellFormed names)
    (rightForm : right.WellFormed names) :
    (Expr.binary left operator right).WellFormed names := by
  rw [Expr.WellFormed]
  exact ⟨leftForm, rightForm⟩

theorem logical_wellFormed
    (left : Expr)
    (operator : Token)
    (right : Expr)
    (leftForm : left.WellFormed names)
    (rightForm : right.WellFormed names) :
    (Expr.logical left operator right).WellFormed names := by
  rw [Expr.WellFormed]
  exact ⟨leftForm, rightForm⟩

/-- Binary and logical expressions of every rank are well-formed. -/
theorem logicOr_yields
    (operands : Yields names (Expr.WellFormed names) operand) :
    Yields names (Expr.WellFormed names) (LogicOr operand) :=
  leftAssociative_yields logical_wellFormed <| leftAssociative_yields logical_wellFormed <|
    leftAssociative_yields binary_wellFormed <| leftAssociative_yields binary_wellFormed <|
      leftAssociative_yields binary_wellFormed <| leftAssociative_yields binary_wellFormed operands

/-- An assignment is well-formed, since its target is a name or a property. -/
theorem assignment_yields
    (operands : Yields names (Expr.WellFormed names) operand)
    (expressions : Yields names (Expr.WellFormed names) expression) :
    Yields names (Expr.WellFormed names) (Assignment (Unary operand expression) expression) := by
  intro first tokens result next derived spelled
  cases derived with
  | named isName isEquals right =>
    rw [List.forall_mem_cons, List.forall_mem_cons] at spelled
    rw [Expr.WellFormed]
    exact ⟨spelled.1.isName isName, expressions right spelled.2.2⟩
  | property left isDot isName isEquals right =>
    simp only [List.forall_mem_append, List.forall_mem_cons] at spelled
    rw [Expr.WellFormed]
    exact ⟨call_yields expressions left spelled.1, expressions right spelled.2.2.2.2⟩
  | operators only => exact logicOr_yields (unary_yields operands expressions) only spelled

/-- Expressions and operands are well-formed, however deeply they are nested. -/
theorem expression_and_operand_yield (room : Nat) :
    Yields names (Expr.WellFormed names) (Expression room) ∧
      Yields names (Expr.WellFormed names) (Operand room) := by
  induction room with
  | zero =>
    constructor
    · intro first tokens result next impossible
      exact impossible.elim
    · intro first tokens result next impossible
      exact impossible.elim
  | succ room inductionHypothesis =>
    obtain ⟨expressions, operands⟩ := inductionHypothesis
    exact ⟨assignment_yields operands expressions, unary_yields operands expressions⟩

/-- Every expression that the grammar derives is well-formed. -/
theorem expression_yields (room : Nat) : Yields names (Expr.WellFormed names) (Expression room) :=
  (expression_and_operand_yield room).1

end Expressions

section Statements

variable
  {expression : Phrase Expr}
  {statement : Bool -> Phrase Stmt}
  {block : Phrase (List Stmt)}

/-- A variable declaration is well-formed. -/
theorem variableDeclaration_yields
    (expressions : Yields names (Expr.WellFormed names) expression) :
    Yields names (Stmt.WellFormed names) (VariableDeclaration expression) := by
  rintro first tokens result next ⟨isName, inside, isSemicolon⟩ spelled
  rw [List.forall_mem_cons, List.forall_mem_append] at spelled
  rw [Stmt.WellFormed]
  refine ⟨spelled.1.isName isName, ?_⟩
  cases inside with
  | none => trivial
  | some isEquals inside => exact expressions inside (List.forall_mem_cons.mp spelled.2.1).2

/-- An expression statement is well-formed and declares nothing. -/
theorem expressionStatement_yields
    (expressions : Yields names (Expr.WellFormed names) expression) :
    Yields names (fun result => result.declaredName? = none ∧ result.WellFormed names)
      (ExpressionStatement expression) := by
  rintro first tokens result next ⟨inside, isSemicolon⟩ spelled
  rw [List.forall_mem_append] at spelled
  rw [Stmt.WellFormed]
  exact ⟨rfl, expressions inside spelled.1⟩

/-- What begins a loop is well-formed, if there is anything. -/
theorem forInitializer_yields
    (expressions : Yields names (Expr.WellFormed names) expression) :
    Yields names (fun result => ∀ statement ∈ result, statement.WellFormed names)
      (ForInitializer expression) := by
  intro first tokens result next derived spelled
  cases derived with
  | none isSemicolon => simp
  | variableDecl isWord inside =>
    rw [List.forall_mem_cons] at spelled
    simpa using variableDeclaration_yields expressions inside spelled.2
  | expression only => simpa using (expressionStatement_yields expressions only spelled).2

/-- A loop is well-formed after it has been put together from its parts. -/
theorem forLoop_wellFormed
    {initializer : Option Stmt}
    {condition increment : Option Expr}
    {body : Stmt}
    (start : ∀ statement ∈ initializer, statement.WellFormed names)
    (test : Expr.OptionWellFormed names condition)
    (step : Expr.OptionWellFormed names increment)
    (repeated : body.declaredName? = none ∧ body.WellFormed names) :
    (Parse.forLoop initializer condition increment body).declaredName? = none ∧
      (Parse.forLoop initializer condition increment body).WellFormed names := by
  cases initializer <;> cases condition <;> cases increment <;>
    simp_all [Parse.forLoop, Stmt.WellFormed, Stmt.AllWellFormed, Stmt.declaredName?,
      Expr.OptionWellFormed, Expr.WellFormed]

/-- A statement that is no declaration adds no name, and is well-formed. -/
theorem statement_yields
    (expressions : Yields names (Expr.WellFormed names) expression)
    (statements : ∀ dangling,
      Yields names (fun result => result.declaredName? = none ∧ result.WellFormed names)
        (statement dangling))
    (blocks : Yields names (Stmt.AllWellFormed names) block)
    (dangling : Bool) :
    Yields names (fun result => result.declaredName? = none ∧ result.WellFormed names)
      (Statement expression statement block dangling) := by
  intro first tokens result next derived spelled
  cases derived with
  | expression only => exact expressionStatement_yields expressions only spelled
  | print isWord inside isSemicolon =>
    rw [List.forall_mem_cons, List.forall_mem_append] at spelled
    rw [Stmt.WellFormed]
    exact ⟨rfl, expressions inside spelled.2.1⟩
  | returns isWord inside isSemicolon =>
    rw [List.forall_mem_cons, List.forall_mem_append] at spelled
    rw [Stmt.WellFormed]
    exact ⟨rfl, optional_yields expressions inside spelled.2.1⟩
  | block isOpening inside =>
    rw [List.forall_mem_cons] at spelled
    rw [Stmt.WellFormed]
    exact ⟨rfl, blocks inside spelled.2⟩
  | loop isWord isOpening inside isClosing repeated =>
    simp only [List.forall_mem_append, List.forall_mem_cons] at spelled
    obtain ⟨-, -, conditionSpelled, -, bodySpelled⟩ := spelled
    rw [Stmt.WellFormed]
    exact ⟨rfl, expressions inside conditionSpelled, statements _ repeated bodySpelled⟩
  | forLoop isWord isOpening start test isSemicolon step isClosing repeated =>
    simp only [List.forall_mem_append, List.forall_mem_cons] at spelled
    obtain ⟨-, -, startSpelled, testSpelled, -, stepSpelled, -, bodySpelled⟩ := spelled
    exact forLoop_wellFormed (forInitializer_yields expressions start startSpelled)
      (optional_yields expressions test testSpelled) (optional_yields expressions step stepSpelled)
      (statements _ repeated bodySpelled)
  | conditional isWord isOpening inside isClosing whenTrue =>
    simp only [List.forall_mem_append, List.forall_mem_cons] at spelled
    obtain ⟨-, -, conditionSpelled, -, thenSpelled⟩ := spelled
    rw [Stmt.WellFormed, Stmt.OptionWellFormed]
    exact ⟨rfl, expressions inside conditionSpelled, statements _ whenTrue thenSpelled, trivial⟩
  | alternative isWord isOpening inside isClosing whenTrue isOtherwise whenFalse =>
    simp only [List.forall_mem_append, List.forall_mem_cons] at spelled
    obtain ⟨-, -, conditionSpelled, -, thenSpelled, -, elseSpelled⟩ := spelled
    rw [Stmt.WellFormed, Stmt.OptionWellFormed]
    exact ⟨rfl, expressions inside conditionSpelled, statements _ whenTrue thenSpelled,
      statements _ whenFalse elseSpelled⟩

/-- A function is well-formed if its body is. -/
theorem function_yields
    (blocks : Yields names (Stmt.AllWellFormed names) block) :
    Yields names (FunctionDecl.WellFormed names) (Function block) := by
  rintro first tokens result next ⟨isName, isOpening, listed, isBrace, inside⟩ spelled
  simp only [List.forall_mem_append, List.forall_mem_cons] at spelled
  obtain ⟨nameSpelled, -, parametersSpelled, -, bodySpelled⟩ := spelled
  rw [FunctionDecl.WellFormed]
  exact ⟨nameSpelled.isName isName, listed_yields identifier_yields listed parametersSpelled,
    blocks inside bodySpelled⟩

/-- A superclass is a name, if there is one. -/
theorem superclass_yields : Yields names (Reference.OptionWellFormed names) Superclass := by
  intro first tokens result next derived spelled
  cases derived with
  | none => trivial
  | some isLess isName =>
    rw [List.forall_mem_cons, List.forall_mem_singleton] at spelled
    exact spelled.2.isName isName

/-- A declaration is well-formed if its parts are. -/
theorem declaration_yields
    (expressions : Yields names (Expr.WellFormed names) expression)
    (statements : ∀ dangling,
      Yields names (fun result => result.declaredName? = none ∧ result.WellFormed names)
        (statement dangling))
    (blocks : Yields names (Stmt.AllWellFormed names) block) :
    Yields names (Stmt.WellFormed names) (Declaration expression statement block) := by
  intro first tokens result next derived spelled
  cases derived with
  | classDecl isWord isName inherits isOpening inside isClosing =>
    simp only [List.forall_mem_append, List.forall_mem_cons] at spelled
    obtain ⟨-, nameSpelled, superclassSpelled, -, methodsSpelled, -⟩ := spelled
    rw [Stmt.WellFormed]
    exact ⟨nameSpelled.isName isName, superclass_yields inherits superclassSpelled,
      FunctionDecl.allWellFormed_iff.mpr
        (repeated_yields (function_yields blocks) inside methodsSpelled)⟩
  | function isWord inside =>
    rw [List.forall_mem_cons] at spelled
    rw [Stmt.WellFormed]
    exact function_yields blocks inside spelled.2
  | variableDecl isWord inside =>
    rw [List.forall_mem_cons] at spelled
    exact variableDeclaration_yields expressions inside spelled.2
  | statement only => exact (statements _ only spelled).2

/-- A block is well-formed if its declarations are. -/
theorem block_yields
    {declaration : Phrase Stmt}
    (declarations : Yields names (Stmt.WellFormed names) declaration) :
    Yields names (Stmt.AllWellFormed names) (Block declaration) := by
  rintro first tokens result next ⟨inside, isClosing⟩ spelled
  rw [List.forall_mem_append] at spelled
  exact Stmt.allWellFormed_iff.mpr (repeated_yields declarations inside spelled.1)

end Statements

/-- Statements and blocks are well-formed, however deeply they are nested. -/
theorem statementWithin_and_blockWithin_yield (room : Nat) :
    (∀ dangling,
        Yields names (fun result => result.declaredName? = none ∧ result.WellFormed names)
          (StatementWithin room dangling)) ∧
      Yields names (Stmt.AllWellFormed names) (BlockWithin room) := by
  induction room with
  | zero =>
    constructor
    · intro dangling first tokens result next impossible
      exact impossible.elim
    · intro first tokens result next impossible
      exact impossible.elim
  | succ room inductionHypothesis =>
    obtain ⟨statements, blocks⟩ := inductionHypothesis
    have expressions : Yields names (Expr.WellFormed names) (Expression room) :=
      expression_yields room
    exact ⟨statement_yields expressions statements blocks,
      block_yields (declaration_yields expressions statements blocks)⟩

/-- Every program that the grammar derives from well-spelled tokens is
well-formed. -/
theorem program_yields : Yields names (Stmt.AllWellFormed names) Program := by
  intro first tokens result next derived spelled
  obtain ⟨statements, blocks⟩ := statementWithin_and_blockWithin_yield Parse.maxNesting
  have declarations := declaration_yields (expression_yields Parse.maxNesting) statements blocks
  exact Stmt.allWellFormed_iff.mpr (repeated_yields declarations derived spelled)

end Grammar

end Forms

end TreeWalk
