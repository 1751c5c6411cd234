import TreeWalk.Proofs.Grammar

/-!
# Numbers of references

The references of a tree that the grammar derives have different numbers, which
fill no more than the range that the derivation states.  So the numbers of a
program tell its references apart, and those of two programs parsed one after
the other are disjoint.
-/

namespace TreeWalk

mutual

/-- The numbers of the references in an expression. -/
def Expr.ids : Expr -> List Nat
  | .literal _ => []
  | .grouping inner => inner.ids
  | .unary _ right => right.ids
  | .binary left _ right => left.ids ++ right.ids
  | .logical left _ right => left.ids ++ right.ids
  | .read target => [target.id]
  | .assign target value => value.ids ++ [target.id]
  | .call callee _ arguments => callee.ids ++ Expr.listIds arguments
  | .property object _ => object.ids
  | .setProperty object _ value => object.ids ++ value.ids
  | .self keyword => [keyword.id]
  | .inherited keyword _ => [keyword.id]

/-- The numbers of the references in expressions. -/
def Expr.listIds : List Expr -> List Nat
  | [] => []
  | first :: rest => first.ids ++ Expr.listIds rest

end

/-- The numbers of the references in an expression that may be missing. -/
def Expr.optionIds : Option Expr -> List Nat
  | none => []
  | some value => value.ids

/-- The number of a superclass reference that may be missing. -/
def Reference.optionIds : Option Reference -> List Nat
  | none => []
  | some reference => [reference.id]

mutual

/-- The numbers of the references in a statement. -/
def Stmt.ids : Stmt -> List Nat
  | .expression value => value.ids
  | .print value => value.ids
  | .declare _ initializer => Expr.optionIds initializer
  | .block body => Stmt.listIds body
  | .conditional condition thenBranch elseBranch =>
    condition.ids ++ thenBranch.ids ++ Stmt.optionIds elseBranch
  | .loop condition body => condition.ids ++ body.ids
  | .function declaration => declaration.ids
  | .returns _ value => Expr.optionIds value
  | .classDecl _ superclass methods =>
    Reference.optionIds superclass ++ FunctionDecl.listIds methods

/-- The numbers of the references in statements. -/
def Stmt.listIds : List Stmt -> List Nat
  | [] => []
  | first :: rest => first.ids ++ Stmt.listIds rest

/-- The numbers of the references in a statement that may be missing. -/
def Stmt.optionIds : Option Stmt -> List Nat
  | none => []
  | some value => value.ids

/-- The numbers of the references in a function. -/
def FunctionDecl.ids : FunctionDecl -> List Nat
  | ⟨_, _, body⟩ => Stmt.listIds body

/-- The numbers of the references in functions. -/
def FunctionDecl.listIds : List FunctionDecl -> List Nat
  | [] => []
  | first :: rest => first.ids ++ FunctionDecl.listIds rest

end

attribute [simp] Expr.ids Expr.listIds Stmt.ids Stmt.listIds Stmt.optionIds FunctionDecl.ids
  FunctionDecl.listIds

theorem Expr.listIds_eq_flatMap (expressions : List Expr) :
    Expr.listIds expressions = expressions.flatMap Expr.ids := by
  induction expressions with
  | nil => rfl
  | cons first rest inductionHypothesis =>
    rw [Expr.listIds, List.flatMap_cons, inductionHypothesis]

theorem Stmt.listIds_eq_flatMap (statements : List Stmt) :
    Stmt.listIds statements = statements.flatMap Stmt.ids := by
  induction statements with
  | nil => rfl
  | cons first rest inductionHypothesis =>
    rw [Stmt.listIds, List.flatMap_cons, inductionHypothesis]

theorem FunctionDecl.listIds_eq_flatMap (functions : List FunctionDecl) :
    FunctionDecl.listIds functions = functions.flatMap FunctionDecl.ids := by
  induction functions with
  | nil => rfl
  | cons first rest inductionHypothesis =>
    rw [FunctionDecl.listIds, List.flatMap_cons, inductionHypothesis]

namespace Grammar

/-- Different numbers from `first` up to, and without, `next`. -/
structure Spans (first next : Nat) (ids : List Nat) : Prop where
  ordered : first ≤ next
  bounds : ∀ id ∈ ids, first ≤ id ∧ id < next
  distinct : ids.Nodup

namespace Spans

/-- No numbers span an empty range. -/
theorem empty (first : Nat) : Spans first first [] :=
  ⟨Nat.le_refl first, by simp, List.nodup_nil⟩

/-- One number spans a range of one. -/
theorem one (first : Nat) : Spans first (first + 1) [first] :=
  ⟨Nat.le_succ first, by simp, by simp⟩

/-- Two ranges, one after the other, make up one range. -/
theorem append
    {first middle next : Nat}
    {ids others : List Nat}
    (one : Spans first middle ids)
    (other : Spans middle next others) :
    Spans first next (ids ++ others) := by
  have ordered := Nat.le_trans one.ordered other.ordered
  refine ⟨ordered, fun id member => ?_, ?_⟩
  · have firstOrdered := one.ordered
    have secondOrdered := other.ordered
    rcases List.mem_append.mp member with inOne | inOther
    · have bounds := one.bounds id inOne
      omega
    · have bounds := other.bounds id inOther
      omega
  · refine List.nodup_append.mpr ⟨one.distinct, other.distinct, ?_⟩
    intro id inOne otherId inOther same
    have bounds := one.bounds id inOne
    have otherBounds := other.bounds otherId inOther
    omega

/-- The order of the numbers does not matter. -/
theorem perm
    {first next : Nat}
    {ids others : List Nat}
    (spans : Spans first next ids)
    (permuted : ids.Perm others) :
    Spans first next others :=
  ⟨spans.ordered, fun id member => spans.bounds id (permuted.mem_iff.mpr member),
    permuted.nodup_iff.mp spans.distinct⟩

/-- The first number of a range may stay unused. -/
theorem skip
    {first next : Nat}
    {ids : List Nat}
    (spans : Spans (first + 1) next ids) :
    Spans first next ids := by
  have ordered := spans.ordered
  refine ⟨by omega, fun id member => ?_, spans.distinct⟩
  have bounds := spans.bounds id member
  omega

end Spans

/-- The references of what a category derives have different numbers in the range
that the derivation states. -/
def Numbered {α : Type} (ids : α -> List Nat) (phrase : Phrase α) : Prop :=
  ∀ ⦃first tokens result next⦄, phrase first tokens result next -> Spans first next (ids result)

section Lists

variable {α : Type} {ids : α -> List Nat} {item : Phrase α}

/-- The numbers of a repetition are those of its items, range after range. -/
theorem repeated_numbered
    (items : Numbered ids item) :
    Numbered (·.flatMap ids) (Repeated item) := by
  intro first tokens result next derived
  induction derived with
  | none => exact .empty _
  | more before one inductionHypothesis =>
    simpa using inductionHypothesis.append (items one)

/-- So are those of a list with commas. -/
theorem separated_numbered
    (items : Numbered ids item) :
    Numbered (·.flatMap ids) (Separated item) := by
  intro first tokens result next derived
  induction derived with
  | single only => simpa using items only
  | more before isComma one inductionHypothesis =>
    simpa using inductionHypothesis.append (items one)

/-- So are those of a list in parentheses. -/
theorem listed_numbered
    (items : Numbered ids item) :
    Numbered (·.1.flatMap ids) (Listed item) := by
  intro first tokens result next derived
  cases derived with
  | none isClosing => exact .empty _
  | some inner few isClosing => exact separated_numbered items inner

end Lists

theorem optional_numbered
    {expression : Phrase Expr}
    (expressions : Numbered Expr.ids expression) :
    Numbered Expr.optionIds (Optional expression) := by
  intro first tokens result next derived
  cases derived with
  | none => exact .empty _
  | some only => exact expressions only

section Expressions

variable {operand expression : Phrase Expr}

/-- A primary expression has one number of its own, or those inside of it. -/
theorem primary_numbered
    (expressions : Numbered Expr.ids expression) :
    Numbered Expr.ids (Primary expression) := by
  intro first tokens result next derived
  cases derived with
  | literal found => exact .empty _
  | name isName => exact .one _
  | self isKeyword => exact .one _
  | inherited isKeyword isDot isName => exact .one _
  | grouping isOpening inside isClosing =>
    rw [Expr.ids]
    exact expressions inside

/-- A chain of calls and properties has the numbers of its parts. -/
theorem call_numbered
    (expressions : Numbered Expr.ids expression) :
    Numbered Expr.ids (Call expression) := by
  intro first tokens result next derived
  induction derived with
  | primary only => exact primary_numbered expressions only
  | call before isOpening inside inductionHypothesis =>
    rw [Expr.ids, Expr.listIds_eq_flatMap]
    exact inductionHypothesis.append (listed_numbered expressions inside)
  | property before isDot isName inductionHypothesis =>
    rw [Expr.ids]
    exact inductionHypothesis

/-- A unary expression has the numbers of its operand. -/
theorem unary_numbered
    (operands : Numbered Expr.ids operand)
    (expressions : Numbered Expr.ids expression) :
    Numbered Expr.ids (Unary operand expression) := by
  intro first tokens result next derived
  cases derived with
  | operator isOperator inside =>
    rw [Expr.ids]
    exact operands inside
  | call only => exact call_numbered expressions only

/-- A chain of operators has the numbers of its operands, from left to right. -/
theorem leftAssociative_numbered
    {operators : List Token.Kind}
    {combine : Expr -> Token -> Expr -> Expr}
    (combined : ∀ left operator right, (combine left operator right).ids = left.ids ++ right.ids)
    (operands : Numbered Expr.ids operand) :
    Numbered Expr.ids (LeftAssociative operators combine operand) := by
  intro first tokens result next derived
  induction derived with
  | operand only => exact operands only
  | combined before isOperator after inductionHypothesis =>
    rw [combined]
    exact inductionHypothesis.append (operands after)

theorem binary_ids (left : Expr) (operator : Token) (right : Expr) :
    (Expr.binary left operator right).ids = left.ids ++ right.ids := by
  rw [Expr.ids]

theorem logical_ids (left : Expr) (operator : Token) (right : Expr) :
    (Expr.logical left operator right).ids = left.ids ++ right.ids := by
  rw [Expr.ids]

/-- Binary and logical expressions of every rank have the numbers of their operands. -/
theorem logicOr_numbered
    (operands : Numbered Expr.ids operand) :
    Numbered Expr.ids (LogicOr operand) :=
  leftAssociative_numbered logical_ids <| leftAssociative_numbered logical_ids <|
    leftAssociative_numbered binary_ids <| leftAssociative_numbered binary_ids <|
      leftAssociative_numbered binary_ids <| leftAssociative_numbered binary_ids operands

/-- The number of an assigned variable is given out before those of the value. -/
theorem assignment_numbered
    (operands : Numbered Expr.ids operand)
    (expressions : Numbered Expr.ids expression) :
    Numbered Expr.ids (Assignment (Unary operand expression) expression) := by
  intro first tokens result next derived
  cases derived with
  | named isName isEquals right =>
    rw [Expr.ids]
    exact (expressions right).skip.append (.one _)
  | property left isDot isName isEquals right =>
    rw [Expr.ids]
    exact (call_numbered expressions left).append (expressions right)
  | operators only => exact logicOr_numbered (unary_numbered operands expressions) only

/-- The numbers of expressions and operands span their ranges, however deeply they are
nested. -/
theorem expression_and_operand_numbered (room : Nat) :
    Numbered Expr.ids (Expression room) ∧ Numbered Expr.ids (Operand room) := by
  induction room with
  | zero =>
    constructor
    · intro first tokens result next impossible
      exact impossible.elim
    · intro first tokens result next impossible
      exact impossible.elim
  | succ room inductionHypothesis =>
    obtain ⟨expressions, operands⟩ := inductionHypothesis
    exact ⟨assignment_numbered operands expressions, unary_numbered operands expressions⟩

/-- The references of an expression have different numbers. -/
theorem expression_numbered (room : Nat) : Numbered Expr.ids (Expression room) :=
  (expression_and_operand_numbered room).1

end Expressions

section Statements

variable
  {expression : Phrase Expr}
  {statement : Bool -> Phrase Stmt}
  {block : Phrase (List Stmt)}

/-- An expression statement has the numbers of its expression. -/
theorem expressionStatement_numbered
    (expressions : Numbered Expr.ids expression) :
    Numbered Stmt.ids (ExpressionStatement expression) := by
  rintro first tokens result next ⟨inside, isSemicolon⟩
  rw [Stmt.ids]
  exact expressions inside

/-- A variable declaration has the numbers of its initializer. -/
theorem variableDeclaration_numbered
    (expressions : Numbered Expr.ids expression) :
    Numbered Stmt.ids (VariableDeclaration expression) := by
  rintro first tokens result next ⟨isName, inside, isSemicolon⟩
  rw [Stmt.ids]
  cases inside with
  | none => exact .empty _
  | some isEquals inside => exact expressions inside

/-- What begins a loop has the numbers of its expression. -/
theorem forInitializer_numbered
    (expressions : Numbered Expr.ids expression) :
    Numbered Stmt.optionIds (ForInitializer expression) := by
  intro first tokens result next derived
  cases derived with
  | none isSemicolon => exact .empty _
  | variableDecl isWord inside => exact variableDeclaration_numbered expressions inside
  | expression only => exact expressionStatement_numbered expressions only

/-- A `for` loop has the references of its parts, those of the increment after
those of the body. -/
theorem forLoop_ids
    (initializer : Option Stmt)
    (condition increment : Option Expr)
    (body : Stmt) :
    (Parse.forLoop initializer condition increment body).ids =
      Stmt.optionIds initializer ++ (Expr.optionIds condition ++
        (body.ids ++ Expr.optionIds increment)) := by
  cases initializer <;> cases condition <;> cases increment <;>
    simp [Parse.forLoop, Stmt.ids, Stmt.listIds, Stmt.optionIds, Expr.optionIds, Expr.ids]

/-- The numbers of a statement span its range if those of its parts do. -/
theorem statement_numbered
    (expressions : Numbered Expr.ids expression)
    (statements : ∀ dangling, Numbered Stmt.ids (statement dangling))
    (blocks : Numbered Stmt.listIds block)
    (dangling : Bool) :
    Numbered Stmt.ids (Statement expression statement block dangling) := by
  intro first tokens result next derived
  cases derived with
  | expression only => exact expressionStatement_numbered expressions only
  | print isWord inside isSemicolon =>
    rw [Stmt.ids]
    exact expressions inside
  | returns isWord inside isSemicolon =>
    rw [Stmt.ids]
    exact optional_numbered expressions inside
  | block isOpening inside =>
    rw [Stmt.ids]
    exact blocks inside
  | loop isWord isOpening inside isClosing repeated =>
    rw [Stmt.ids]
    exact (expressions inside).append (statements _ repeated)
  | forLoop isWord isOpening start test isSemicolon step isClosing repeated =>
    have header := (optional_numbered expressions step).append (statements _ repeated)
    have looped := (optional_numbered expressions test).append header
    refine ((forInitializer_numbered expressions start).append looped).perm ?_
    rw [forLoop_ids]
    exact (List.perm_append_comm.append_left _).append_left _
  | conditional isWord isOpening inside isClosing whenTrue =>
    rw [Stmt.ids, Stmt.optionIds, List.append_nil]
    exact (expressions inside).append (statements _ whenTrue)
  | alternative isWord isOpening inside isClosing whenTrue isOtherwise whenFalse =>
    rw [Stmt.ids]
    exact ((expressions inside).append (statements _ whenTrue)).append (statements _ whenFalse)

/-- A function has the numbers of its body. -/
theorem function_numbered
    (blocks : Numbered Stmt.listIds block) :
    Numbered FunctionDecl.ids (Function block) := by
  rintro first tokens result next ⟨isName, isOpening, listed, isBrace, inside⟩
  rw [FunctionDecl.ids]
  exact blocks inside

/-- A superclass has one number, if there is one. -/
theorem superclass_numbered : Numbered Reference.optionIds Superclass := by
  intro first tokens result next derived
  cases derived with
  | none => exact .empty _
  | some isLess isName => exact .one _

/-- The numbers of a declaration span its range if those of its parts do. -/
theorem declaration_numbered
    (expressions : Numbered Expr.ids expression)
    (statements : ∀ dangling, Numbered Stmt.ids (statement dangling))
    (blocks : Numbered Stmt.listIds block) :
    Numbered Stmt.ids (Declaration expression statement block) := by
  intro first tokens result next derived
  cases derived with
  | classDecl isWord isName inherits isOpening inside isClosing =>
    rw [Stmt.ids, FunctionDecl.listIds_eq_flatMap]
    exact (superclass_numbered inherits).append
      (repeated_numbered (function_numbered blocks) inside)
  | function isWord inside =>
    rw [Stmt.ids]
    exact function_numbered blocks inside
  | variableDecl isWord inside => exact variableDeclaration_numbered expressions inside
  | statement only => exact statements _ only

/-- A block has the numbers of its declarations. -/
theorem block_numbered
    {declaration : Phrase Stmt}
    (declarations : Numbered Stmt.ids declaration) :
    Numbered Stmt.listIds (Block declaration) := by
  rintro first tokens result next ⟨inside, isClosing⟩
  rw [Stmt.listIds_eq_flatMap]
  exact repeated_numbered declarations inside

end Statements

/-- The numbers of statements and blocks span their ranges, however deeply they are
nested. -/
theorem statementWithin_and_blockWithin_numbered (room : Nat) :
    (∀ dangling, Numbered Stmt.ids (StatementWithin room dangling)) ∧
      Numbered Stmt.listIds (BlockWithin room) := by
  induction room with
  | zero =>
    constructor
    · intro dangling first tokens result next impossible
      exact impossible.elim
    · intro first tokens result next impossible
      exact impossible.elim
  | succ room inductionHypothesis =>
    obtain ⟨statements, blocks⟩ := inductionHypothesis
    have expressions := expression_numbered room
    exact ⟨statement_numbered expressions statements blocks,
      block_numbered (declaration_numbered expressions statements blocks)⟩

/-- The references of a program have different numbers in the range that its
derivation states. -/
theorem program_numbered : Numbered Stmt.listIds Program := by
  intro first tokens result next derived
  obtain ⟨statements, blocks⟩ := statementWithin_and_blockWithin_numbered Parse.maxNesting
  have expressions := expression_numbered Parse.maxNesting
  rw [Stmt.listIds_eq_flatMap]
  exact repeated_numbered (declaration_numbered expressions statements blocks) derived

end Grammar
end TreeWalk
