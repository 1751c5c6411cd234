import TreeWalk.Proofs.Grammar

/-!
# The leaves of derived trees

The leaves of a tree are tokens, each in some role, and literals.  Main statement: in
every tree that the grammar derives, the tokens are of the kinds that their roles ask for,
and tokens and literals alike are taken from the tokens that the tree is derived from.
Only the condition of a loop without one is made up.
-/

namespace TreeWalk

/-- What a token of a tree is there for. -/
inductive Role where
  | sign
  | operator
  | connective
  | name
  | closing
  | receiver
  | ancestor
  | returning
deriving DecidableEq

/-- The kinds of tokens that can have a role. -/
def Role.kinds : Role -> List Token.Kind
  | sign => [.symbol .bang, .symbol .minus]
  | operator =>
    [.symbol .slash, .symbol .star, .symbol .minus, .symbol .plus, .symbol .greater,
      .symbol .greaterEqual, .symbol .less, .symbol .lessEqual, .symbol .bangEqual,
      .symbol .equalEqual]
  | connective => [.keyword .andWord, .keyword .orWord]
  | name => [.identifier]
  | closing => [.symbol .rightParen]
  | receiver => [.keyword .thisWord]
  | ancestor => [.keyword .superWord]
  | returning => [.keyword .returnWord]

/-- A leaf of a tree: a token in its role, or a literal. -/
inductive Leaf where
  | token (role : Role) (token : Token)
  | literal (value : Literal)

mutual

/-- The leaves of an expression. -/
def Expr.leaves : Expr -> List Leaf
  | .literal value => [.literal value]
  | .grouping inner => inner.leaves
  | .unary operator right => .token .sign operator :: right.leaves
  | .binary left operator right => left.leaves ++ .token .operator operator :: right.leaves
  | .logical left operator right => left.leaves ++ .token .connective operator :: right.leaves
  | .read target => [.token .name target.name]
  | .assign target value => .token .name target.name :: value.leaves
  | .call callee paren arguments =>
    callee.leaves ++ .token .closing paren :: Expr.listLeaves arguments
  | .property object name => object.leaves ++ [.token .name name]
  | .setProperty object name value => object.leaves ++ .token .name name :: value.leaves
  | .self keyword => [.token .receiver keyword.name]
  | .inherited keyword method => [.token .ancestor keyword.name, .token .name method]

/-- The leaves of expressions. -/
def Expr.listLeaves : List Expr -> List Leaf
  | [] => []
  | first :: rest => first.leaves ++ Expr.listLeaves rest

end

/-- The leaves of an expression that may be missing. -/
def Expr.optionLeaves : Option Expr -> List Leaf
  | none => []
  | some value => value.leaves

/-- The leaves of the head of a class that may be missing. -/
def Reference.optionLeaves : Option Reference -> List Leaf
  | none => []
  | some reference => [.token .name reference.name]

mutual

/-- The leaves of a statement. -/
def Stmt.leaves : Stmt -> List Leaf
  | .expression value => value.leaves
  | .print value => value.leaves
  | .declare name initializer => .token .name name :: Expr.optionLeaves initializer
  | .block body => Stmt.listLeaves body
  | .conditional condition thenBranch elseBranch =>
    condition.leaves ++ (thenBranch.leaves ++ Stmt.optionLeaves elseBranch)
  | .loop condition body => condition.leaves ++ body.leaves
  | .function declaration => declaration.leaves
  | .returns keyword value => .token .returning keyword :: Expr.optionLeaves value
  | .classDecl name superclass methods =>
    .token .name name :: (Reference.optionLeaves superclass ++ FunctionDecl.listLeaves methods)

/-- The leaves of statements. -/
def Stmt.listLeaves : List Stmt -> List Leaf
  | [] => []
  | first :: rest => first.leaves ++ Stmt.listLeaves rest

/-- The leaves of a statement that may be missing. -/
def Stmt.optionLeaves : Option Stmt -> List Leaf
  | none => []
  | some branch => branch.leaves

/-- The leaves of a function. -/
def FunctionDecl.leaves : FunctionDecl -> List Leaf
  | ⟨name, parameters, body⟩ =>
    .token .name name :: (parameters.map (.token .name) ++ Stmt.listLeaves body)

/-- The leaves of functions. -/
def FunctionDecl.listLeaves : List FunctionDecl -> List Leaf
  | [] => []
  | first :: rest => first.leaves ++ FunctionDecl.listLeaves rest

end

attribute [simp] Expr.leaves Expr.listLeaves Expr.optionLeaves Reference.optionLeaves Stmt.leaves
  Stmt.listLeaves Stmt.optionLeaves FunctionDecl.leaves FunctionDecl.listLeaves

theorem Expr.listLeaves_eq_flatMap (expressions : List Expr) :
    Expr.listLeaves expressions = expressions.flatMap Expr.leaves := by
  induction expressions with
  | nil => rfl
  | cons first rest inductionHypothesis =>
    rw [Expr.listLeaves, List.flatMap_cons, inductionHypothesis]

theorem Stmt.listLeaves_eq_flatMap (statements : List Stmt) :
    Stmt.listLeaves statements = statements.flatMap Stmt.leaves := by
  induction statements with
  | nil => rw [Stmt.listLeaves, List.flatMap_nil]
  | cons first rest inductionHypothesis =>
    rw [Stmt.listLeaves, List.flatMap_cons, inductionHypothesis]

theorem FunctionDecl.listLeaves_eq_flatMap (functions : List FunctionDecl) :
    FunctionDecl.listLeaves functions = functions.flatMap FunctionDecl.leaves := by
  induction functions with
  | nil => rw [FunctionDecl.listLeaves, List.flatMap_nil]
  | cons first rest inductionHypothesis =>
    rw [FunctionDecl.listLeaves, List.flatMap_cons, inductionHypothesis]

section Sources

variable (source : Token -> Prop)

/-- A token fits its role, and is one of the source.  A literal is that of a token of the
source, or the condition that is made up. -/
def Leaf.Fits : Leaf -> Prop
  | .token role found => found.kind ∈ role.kinds ∧ source found
  | .literal value =>
    value = .boolean true ∨ ∃ token, source token ∧ Grammar.literal? token.kind = some value

namespace Grammar

/-- Whatever a category derives from tokens of the source is made of fitting leaves. -/
def Draws {α : Type} (leaves : α -> List Leaf) (phrase : Phrase α) : Prop :=
  ∀ ⦃first tokens result next⦄, phrase first tokens result next ->
    (∀ token ∈ tokens, source token) -> ∀ leaf ∈ leaves result, leaf.Fits source

variable {source}

section Lists

variable {α : Type} {leaves : α -> List Leaf} {item : Phrase α}

/-- The leaves of a repetition are those of its items, one after the other. -/
theorem repeated_draws
    (items : Draws source leaves item) :
    Draws source (List.flatMap leaves) (Repeated item) := by
  intro first tokens results next derived drawn
  induction derived with
  | none => simp
  | more before one inductionHypothesis =>
    rw [List.forall_mem_append] at drawn
    rw [List.flatMap_append, List.forall_mem_append, List.flatMap_singleton]
    exact ⟨inductionHypothesis drawn.1, items one drawn.2⟩

/-- The leaves of a list with commas are those of its items. -/
theorem separated_draws
    (items : Draws source leaves item) :
    Draws source (List.flatMap leaves) (Separated item) := by
  intro first tokens results next derived drawn
  induction derived with
  | single only =>
    rw [List.flatMap_singleton]
    exact items only drawn
  | more before isComma one inductionHypothesis =>
    rw [List.forall_mem_append, List.forall_mem_cons] at drawn
    rw [List.flatMap_append, List.forall_mem_append, List.flatMap_singleton]
    exact ⟨inductionHypothesis drawn.1, items one drawn.2.2⟩

/-- A list in parentheses has its closing parenthesis as a leaf as well. -/
theorem listed_draws
    (items : Draws source leaves item) :
    Draws source (fun results => .token .closing results.2 :: results.1.flatMap leaves)
      (Listed item) := by
  intro first tokens results next derived drawn
  rw [List.forall_mem_cons]
  cases derived with
  | none isClosing =>
    rw [List.forall_mem_singleton] at drawn
    exact ⟨⟨by simp [isClosing, Role.kinds], drawn⟩, by simp⟩
  | some inner few isClosing =>
    rw [List.forall_mem_append, List.forall_mem_singleton] at drawn
    exact ⟨⟨by simp [isClosing, Role.kinds], drawn.2⟩, separated_draws items inner drawn.1⟩

end Lists

section Expressions

variable {operand expression : Phrase Expr}

/-- A name that is drawn from the text fits as a leaf. -/
theorem fits_name
    {name : Token}
    (isName : name.kind = .identifier)
    (drawn : source name) :
    (Leaf.token .name name).Fits source :=
  ⟨by simp [isName, Role.kinds], drawn⟩

/-- An expression that may be missing draws its leaves from the text. -/
theorem optional_draws
    (expressions : Draws source Expr.leaves expression) :
    Draws source Expr.optionLeaves (Optional expression) := by
  intro first tokens result next derived drawn
  cases derived with
  | none => simp
  | some only => exact expressions only drawn

/-- A primary expression draws its leaves from the text if those inside of it do. -/
theorem primary_draws
    (expressions : Draws source Expr.leaves expression) :
    Draws source Expr.leaves (Primary expression) := by
  intro first tokens result next derived drawn
  cases derived with
  | literal found =>
    rw [List.forall_mem_singleton] at drawn
    rw [Expr.leaves, List.forall_mem_singleton]
    exact .inr ⟨_, drawn, found⟩
  | name isName =>
    rw [List.forall_mem_singleton] at drawn
    rw [Expr.leaves, List.forall_mem_singleton]
    exact fits_name isName drawn
  | self isKeyword =>
    rw [List.forall_mem_singleton] at drawn
    rw [Expr.leaves, List.forall_mem_singleton]
    exact ⟨by simp [isKeyword, Role.kinds], drawn⟩
  | inherited isKeyword isDot isName =>
    simp only [List.forall_mem_cons] at drawn
    rw [Expr.leaves, List.forall_mem_cons, List.forall_mem_singleton]
    exact ⟨⟨by simp [isKeyword, Role.kinds], drawn.1⟩, fits_name isName drawn.2.2.1⟩
  | grouping isOpening inside isClosing =>
    rw [List.forall_mem_cons, List.forall_mem_append] at drawn
    rw [Expr.leaves]
    exact expressions inside drawn.2.1

/-- So does a chain of calls and properties. -/
theorem call_draws
    (expressions : Draws source Expr.leaves expression) :
    Draws source Expr.leaves (Call expression) := by
  intro first tokens result next derived drawn
  induction derived with
  | primary only => exact primary_draws expressions only drawn
  | call before isOpening inside inductionHypothesis =>
    rw [List.forall_mem_append, List.forall_mem_cons] at drawn
    rw [Expr.leaves, Expr.listLeaves_eq_flatMap, List.forall_mem_append]
    exact ⟨inductionHypothesis drawn.1, listed_draws expressions inside drawn.2.2⟩
  | property before isDot isName inductionHypothesis =>
    simp only [List.forall_mem_append, List.forall_mem_cons] at drawn
    rw [Expr.leaves, List.forall_mem_append, List.forall_mem_singleton]
    exact ⟨inductionHypothesis drawn.1, fits_name isName drawn.2.2.1⟩

/-- So does a unary expression. -/
theorem unary_draws
    (operands : Draws source Expr.leaves operand)
    (expressions : Draws source Expr.leaves expression) :
    Draws source Expr.leaves (Unary operand expression) := by
  intro first tokens result next derived drawn
  cases derived with
  | operator isOperator inside =>
    rw [List.forall_mem_cons] at drawn
    rw [Expr.leaves, List.forall_mem_cons]
    exact ⟨⟨isOperator, drawn.1⟩, operands inside drawn.2⟩
  | call only => exact call_draws expressions only drawn

/-- A chain of operators draws its leaves from the text, the operators among them. -/
theorem leftAssociative_draws
    {operators : List Token.Kind}
    {combine : Expr -> Token -> Expr -> Expr}
    {role : Role}
    (combined : ∀ left operator right, (combine left operator right).leaves =
      left.leaves ++ .token role operator :: right.leaves)
    (suitable : operators ⊆ role.kinds)
    (operands : Draws source Expr.leaves operand) :
    Draws source Expr.leaves (LeftAssociative operators combine operand) := by
  intro first tokens result next derived drawn
  induction derived with
  | operand only => exact operands only drawn
  | combined before isOperator after inductionHypothesis =>
    rw [List.forall_mem_append, List.forall_mem_cons] at drawn
    rw [combined, List.forall_mem_append, List.forall_mem_cons]
    exact ⟨inductionHypothesis drawn.1, ⟨suitable isOperator, drawn.2.1⟩,
      operands after drawn.2.2⟩

/-- Binary and logical expressions of every rank draw their leaves from the text. -/
theorem logicOr_draws
    (operands : Draws source Expr.leaves operand) :
    Draws source Expr.leaves (LogicOr operand) := by
  have binary : ∀ left operator right, (Expr.binary left operator right).leaves =
      left.leaves ++ .token .operator operator :: right.leaves :=
    fun left operator right => by rw [Expr.leaves]
  have logical : ∀ left operator right, (Expr.logical left operator right).leaves =
      left.leaves ++ .token .connective operator :: right.leaves :=
    fun left operator right => by rw [Expr.leaves]
  exact leftAssociative_draws logical (by decide) <| leftAssociative_draws logical (by decide) <|
    leftAssociative_draws binary (by decide) <| leftAssociative_draws binary (by decide) <|
      leftAssociative_draws binary (by decide) <| leftAssociative_draws binary (by decide) operands

/-- An assignment draws the leaves of its target and of its value. -/
theorem assignment_draws
    (operands : Draws source Expr.leaves operand)
    (expressions : Draws source Expr.leaves expression) :
    Draws source Expr.leaves (Assignment (Unary operand expression) expression) := by
  intro first tokens result next derived drawn
  cases derived with
  | named isName isEquals right =>
    rw [List.forall_mem_cons, List.forall_mem_cons] at drawn
    rw [Expr.leaves, List.forall_mem_cons]
    exact ⟨fits_name isName drawn.1, expressions right drawn.2.2⟩
  | property left isDot isName isEquals right =>
    simp only [List.forall_mem_append, List.forall_mem_cons] at drawn
    rw [Expr.leaves, List.forall_mem_append, List.forall_mem_cons]
    exact ⟨call_draws expressions left drawn.1, fits_name isName drawn.2.2.1,
      expressions right drawn.2.2.2.2⟩
  | operators only => exact logicOr_draws (unary_draws operands expressions) only drawn

/-- Expressions and operands draw their leaves from the text, however deeply they are
nested. -/
theorem expression_and_operand_draw (room : Nat) :
    Draws source Expr.leaves (Expression room) ∧ Draws source Expr.leaves (Operand room) := by
  induction room with
  | zero =>
    constructor
    · intro first tokens result next impossible
      exact impossible.elim
    · intro first tokens result next impossible
      exact impossible.elim
  | succ room inductionHypothesis =>
    obtain ⟨expressions, operands⟩ := inductionHypothesis
    exact ⟨assignment_draws operands expressions, unary_draws operands expressions⟩

/-- Every leaf of an expression is a token of its text. -/
theorem expression_draws (room : Nat) : Draws source Expr.leaves (Expression room) :=
  (expression_and_operand_draw room).1

end Expressions

section Statements

variable
  {expression : Phrase Expr}
  {statement : Bool -> Phrase Stmt}
  {block : Phrase (List Stmt)}

/-- A variable declaration draws its name and its initializer from the text. -/
theorem variableDeclaration_draws
    (expressions : Draws source Expr.leaves expression) :
    Draws source Stmt.leaves (VariableDeclaration expression) := by
  rintro first tokens result next ⟨isName, inside, isSemicolon⟩ drawn
  rw [List.forall_mem_cons, List.forall_mem_append] at drawn
  rw [Stmt.leaves, List.forall_mem_cons]
  refine ⟨fits_name isName drawn.1, ?_⟩
  cases inside with
  | none => simp
  | some isEquals inside => exact expressions inside (List.forall_mem_cons.mp drawn.2.1).2

/-- An expression statement has the leaves of its expression. -/
theorem expressionStatement_draws
    (expressions : Draws source Expr.leaves expression) :
    Draws source Stmt.leaves (ExpressionStatement expression) := by
  rintro first tokens result next ⟨inside, isSemicolon⟩ drawn
  rw [List.forall_mem_append] at drawn
  rw [Stmt.leaves]
  exact expressions inside drawn.1

/-- What begins a loop draws its leaves from the text. -/
theorem forInitializer_draws
    (expressions : Draws source Expr.leaves expression) :
    Draws source Stmt.optionLeaves (ForInitializer expression) := by
  intro first tokens result next derived drawn
  cases derived with
  | none isSemicolon => simp
  | variableDecl isWord inside =>
    rw [List.forall_mem_cons] at drawn
    rw [Stmt.optionLeaves]
    exact variableDeclaration_draws expressions inside drawn.2
  | expression only =>
    rw [Stmt.optionLeaves]
    exact expressionStatement_draws expressions only drawn

/-- A loop with a `for` header is made of the leaves of its clauses, and of the condition
that is made up if there is none. -/
theorem forLoop_fits
    {initializer : Option Stmt}
    {condition increment : Option Expr}
    {body : Stmt}
    (start : ∀ leaf ∈ Stmt.optionLeaves initializer, leaf.Fits source)
    (test : ∀ leaf ∈ Expr.optionLeaves condition, leaf.Fits source)
    (step : ∀ leaf ∈ Expr.optionLeaves increment, leaf.Fits source)
    (repeated : ∀ leaf ∈ body.leaves, leaf.Fits source) :
    ∀ leaf ∈ (Parse.forLoop initializer condition increment body).leaves, leaf.Fits source := by
  have madeUp : (Leaf.literal (.boolean true)).Fits source := .inl rfl
  cases initializer <;> cases condition <;> cases increment <;>
    simp_all [Parse.forLoop, or_imp]

/-- A statement draws its leaves from the text if its parts do. -/
theorem statement_draws
    (expressions : Draws source Expr.leaves expression)
    (statements : ∀ dangling, Draws source Stmt.leaves (statement dangling))
    (blocks : Draws source Stmt.listLeaves block)
    (dangling : Bool) :
    Draws source Stmt.leaves (Statement expression statement block dangling) := by
  intro first tokens result next derived drawn
  cases derived with
  | expression only => exact expressionStatement_draws expressions only drawn
  | print isWord inside isSemicolon =>
    rw [List.forall_mem_cons, List.forall_mem_append] at drawn
    rw [Stmt.leaves]
    exact expressions inside drawn.2.1
  | returns isWord inside isSemicolon =>
    rw [List.forall_mem_cons, List.forall_mem_append] at drawn
    rw [Stmt.leaves, List.forall_mem_cons]
    exact ⟨⟨by simp [isWord, Role.kinds], drawn.1⟩,
      optional_draws expressions inside drawn.2.1⟩
  | block isOpening inside =>
    rw [List.forall_mem_cons] at drawn
    rw [Stmt.leaves]
    exact blocks inside drawn.2
  | loop isWord isOpening inside isClosing repeated =>
    simp only [List.forall_mem_append, List.forall_mem_cons] at drawn
    obtain ⟨-, -, conditionDrawn, -, bodyDrawn⟩ := drawn
    rw [Stmt.leaves, List.forall_mem_append]
    exact ⟨expressions inside conditionDrawn, statements _ repeated bodyDrawn⟩
  | forLoop isWord isOpening start test isSemicolon step isClosing repeated =>
    simp only [List.forall_mem_append, List.forall_mem_cons] at drawn
    obtain ⟨-, -, startDrawn, testDrawn, -, stepDrawn, -, bodyDrawn⟩ := drawn
    exact forLoop_fits (forInitializer_draws expressions start startDrawn)
      (optional_draws expressions test testDrawn) (optional_draws expressions step stepDrawn)
      (statements _ repeated bodyDrawn)
  | conditional isWord isOpening inside isClosing whenTrue =>
    simp only [List.forall_mem_append, List.forall_mem_cons] at drawn
    obtain ⟨-, -, conditionDrawn, -, thenDrawn⟩ := drawn
    rw [Stmt.leaves, Stmt.optionLeaves, List.append_nil, List.forall_mem_append]
    exact ⟨expressions inside conditionDrawn, statements _ whenTrue thenDrawn⟩
  | alternative isWord isOpening inside isClosing whenTrue isOtherwise whenFalse =>
    simp only [List.forall_mem_append, List.forall_mem_cons] at drawn
    obtain ⟨-, -, conditionDrawn, -, thenDrawn, -, elseDrawn⟩ := drawn
    rw [Stmt.leaves, Stmt.optionLeaves, List.forall_mem_append, List.forall_mem_append]
    exact ⟨expressions inside conditionDrawn, statements _ whenTrue thenDrawn,
      statements _ whenFalse elseDrawn⟩

/-- A parameter is one leaf. -/
theorem parameter_draws :
    Draws source (fun name => [Leaf.token .name name]) (Terminal .identifier) := by
  rintro first tokens result next ⟨hasKind⟩ drawn
  rw [List.forall_mem_singleton] at drawn ⊢
  exact fits_name hasKind drawn

/-- A function draws its name, its parameters and its body from the text. -/
theorem function_draws
    (blocks : Draws source Stmt.listLeaves block) :
    Draws source FunctionDecl.leaves (Function block) := by
  rintro first tokens result next ⟨isName, isOpening, listed, isBrace, inside⟩ drawn
  simp only [List.forall_mem_append, List.forall_mem_cons] at drawn
  obtain ⟨nameDrawn, -, parametersDrawn, -, bodyDrawn⟩ := drawn
  have parameters :=
    (List.forall_mem_cons.mp (listed_draws parameter_draws listed parametersDrawn)).2
  rw [← List.map_eq_flatMap] at parameters
  rw [FunctionDecl.leaves, List.forall_mem_cons, List.forall_mem_append]
  exact ⟨fits_name isName nameDrawn, parameters, blocks inside bodyDrawn⟩

/-- A superclass is one leaf. -/
theorem superclass_draws : Draws source Reference.optionLeaves Superclass := by
  intro first tokens result next derived drawn
  cases derived with
  | none => simp
  | some isLess isName =>
    rw [List.forall_mem_cons, List.forall_mem_singleton] at drawn
    rw [Reference.optionLeaves, List.forall_mem_singleton]
    exact fits_name isName drawn.2

/-- A declaration draws its leaves from the text if its parts do. -/
theorem declaration_draws
    (expressions : Draws source Expr.leaves expression)
    (statements : ∀ dangling, Draws source Stmt.leaves (statement dangling))
    (blocks : Draws source Stmt.listLeaves block) :
    Draws source Stmt.leaves (Declaration expression statement block) := by
  intro first tokens result next derived drawn
  cases derived with
  | classDecl isWord isName inherits isOpening inside isClosing =>
    simp only [List.forall_mem_append, List.forall_mem_cons] at drawn
    obtain ⟨-, nameDrawn, superclassDrawn, -, methodsDrawn, -⟩ := drawn
    rw [Stmt.leaves, FunctionDecl.listLeaves_eq_flatMap, List.forall_mem_cons,
      List.forall_mem_append]
    exact ⟨fits_name isName nameDrawn, superclass_draws inherits superclassDrawn,
      repeated_draws (function_draws blocks) inside methodsDrawn⟩
  | function isWord inside =>
    rw [List.forall_mem_cons] at drawn
    rw [Stmt.leaves]
    exact function_draws blocks inside drawn.2
  | variableDecl isWord inside =>
    rw [List.forall_mem_cons] at drawn
    exact variableDeclaration_draws expressions inside drawn.2
  | statement only => exact statements _ only drawn

/-- The leaves of a block are those of its declarations. -/
theorem block_draws
    {declaration : Phrase Stmt}
    (declarations : Draws source Stmt.leaves declaration) :
    Draws source Stmt.listLeaves (Block declaration) := by
  rintro first tokens result next ⟨inside, isClosing⟩ drawn
  rw [List.forall_mem_append] at drawn
  rw [Stmt.listLeaves_eq_flatMap]
  exact repeated_draws declarations inside drawn.1

end Statements

/-- Statements and blocks draw their leaves from the text, however deeply they are nested.
-/
theorem statementWithin_and_blockWithin_draw (room : Nat) :
    (∀ dangling, Draws source Stmt.leaves (StatementWithin room dangling)) ∧
      Draws source Stmt.listLeaves (BlockWithin room) := by
  induction room with
  | zero =>
    constructor
    · intro dangling first tokens result next impossible
      exact impossible.elim
    · intro first tokens result next impossible
      exact impossible.elim
  | succ room inductionHypothesis =>
    obtain ⟨statements, blocks⟩ := inductionHypothesis
    exact ⟨statement_draws (expression_draws room) statements blocks,
      block_draws (declaration_draws (expression_draws room) statements blocks)⟩

/-- Every program that the grammar derives is made of fitting leaves. -/
theorem program_draws : Draws source Stmt.listLeaves Program := by
  intro first tokens result next derived drawn
  obtain ⟨statements, blocks⟩ := statementWithin_and_blockWithin_draw Parse.maxNesting
  have declarations := declaration_draws (expression_draws Parse.maxNesting) statements blocks
  rw [Stmt.listLeaves_eq_flatMap]
  exact repeated_draws declarations derived drawn

end Grammar

end Sources

end TreeWalk
