import Mathlib.Data.List.Forall2
import TreeWalk.Proofs.Spelling

/-!
# The tokens of a program that is spelled anew

If tokens derive a tree, then tokens that differ from them in their lexemes and
lines alone derive the tree that is spelled anew: the grammar looks only at the
kinds of tokens.
-/

namespace TreeWalk

/-- A token is spelled anew.  Only identifiers get another name. -/
def Token.Respelled (spelling : Spelling) (before after : Token) : Prop :=
  ∃ chosen, after = before.respell spelling chosen ∧ (chosen = true -> before.kind = .identifier)

/-- The choice of the statement or function at a position of a list. -/
def Choice.nth (choice : Choice) : Nat -> Choice
  | 0 => choice.left
  | position + 1 => choice.right.nth position

/-- Expressions are spelled anew one by one. -/
theorem Expr.listRespell_eq_map
    (spelling : Spelling)
    (chosen : List Bool)
    (values : List Expr) :
    Expr.listRespell spelling chosen values = values.map (·.respell spelling chosen) := by
  induction values with
  | nil => rw [Expr.listRespell, List.map_nil]
  | cons first rest inductionHypothesis =>
    rw [Expr.listRespell, inductionHypothesis, List.map_cons]

/-- Statements are spelled anew one by one, each with its own part of the choice. -/
theorem Stmt.listRespell_eq_mapIdx
    (spelling : Spelling)
    (choice : Choice)
    (chosen : List Bool)
    (steps : List Stmt) :
    Stmt.listRespell spelling choice chosen steps =
      steps.mapIdx fun position step => step.respell spelling (choice.nth position) chosen := by
  induction steps generalizing choice with
  | nil => rw [Stmt.listRespell, List.mapIdx_nil]
  | cons first rest inductionHypothesis =>
    rw [Stmt.listRespell, inductionHypothesis, List.mapIdx_cons]
    rfl

/-- Functions are spelled anew one by one, each with its own part of the choice. -/
theorem FunctionDecl.listRespell_eq_mapIdx
    (spelling : Spelling)
    (choice : Choice)
    (chosen : List Bool)
    (declarations : List FunctionDecl) :
    FunctionDecl.listRespell spelling choice chosen declarations =
      declarations.mapIdx fun position declaration =>
        declaration.respell spelling (choice.nth position) chosen := by
  induction declarations generalizing choice with
  | nil => rw [FunctionDecl.listRespell, List.mapIdx_nil]
  | cons first rest inductionHypothesis =>
    rw [FunctionDecl.listRespell, inductionHypothesis, List.mapIdx_cons]
    rfl

namespace Grammar

variable {spelling : Spelling}

/-- What a category derives, it derives spelled anew from tokens that are spelled
anew. -/
def Respells
    {α : Type}
    (spelling : Spelling)
    (respell : α -> α)
    (phrase : Phrase α) : Prop :=
  ∀ ⦃first tokens result next⦄, phrase first tokens result next ->
    ∃ respelled, List.Forall₂ (Token.Respelled spelling) tokens respelled ∧
      phrase first respelled (respell result) next

/-- A token that belongs to no chosen scope is only moved. -/
theorem respelled_token (spelling : Spelling) (token : Token) :
    Token.Respelled spelling token (token.respell spelling false) :=
  ⟨false, rfl, Bool.noConfusion⟩

/-- An identifier may be spelled anew. -/
theorem respelled_identifier
    {token : Token}
    (spelling : Spelling)
    (chosen : Bool)
    (isName : token.kind = .identifier) :
    Token.Respelled spelling token (token.respell spelling chosen) :=
  ⟨chosen, rfl, fun _ => isName⟩

/-- One more token, which belongs to no chosen scope. -/
theorem respelled_cons
    {tokens respelled : List Token}
    (token : Token)
    (rest : List.Forall₂ (Token.Respelled spelling) tokens respelled) :
    List.Forall₂ (Token.Respelled spelling) (token :: tokens)
      (token.respell spelling false :: respelled) :=
  .cons (respelled_token spelling token) rest

theorem respelled_singleton (token : Token) :
    List.Forall₂ (Token.Respelled spelling) [token] [token.respell spelling false] :=
  respelled_cons token .nil

section Lists

variable {α : Type} {item : Phrase α}

/-- A repetition is spelled anew item by item. -/
theorem repeated_respells
    {respell : Nat -> α -> α}
    (items : ∀ position, Respells spelling (respell position) item) :
    Respells spelling (fun results => results.mapIdx respell) (Repeated item) := by
  intro first tokens results next derived
  induction derived with
  | none => exact ⟨[], .nil, .none⟩
  | @more first middle next tokens lastTokens results last before one inductionHypothesis =>
    obtain ⟨respelled, isRespelled, derived⟩ := inductionHypothesis
    obtain ⟨lastRespelled, lastIsRespelled, lastDerived⟩ := items results.length one
    refine ⟨respelled ++ lastRespelled, List.rel_append isRespelled lastIsRespelled, ?_⟩
    dsimp only
    rw [List.mapIdx_concat]
    exact .more derived lastDerived

/-- So is a list with commas. -/
theorem separated_respells
    {respell : α -> α}
    (items : Respells spelling respell item) :
    Respells spelling (List.map respell) (Separated item) := by
  intro first tokens results next derived
  induction derived with
  | single only =>
    obtain ⟨respelled, isRespelled, derived⟩ := items only
    exact ⟨respelled, isRespelled, .single derived⟩
  | @more first middle next tokens lastTokens comma results last before isComma one
      inductionHypothesis =>
    obtain ⟨respelled, isRespelled, derived⟩ := inductionHypothesis
    obtain ⟨lastRespelled, lastIsRespelled, lastDerived⟩ := items one
    refine ⟨respelled ++ comma.respell spelling false :: lastRespelled,
      List.rel_append isRespelled (respelled_cons comma lastIsRespelled), ?_⟩
    rw [List.map_append]
    exact .more derived isComma lastDerived

/-- So is a list in parentheses, with its closing parenthesis. -/
theorem listed_respells
    {respell : α -> α}
    (items : Respells spelling respell item) :
    Respells spelling (fun results => (results.1.map respell, results.2.respell spelling false))
      (Listed item) := by
  intro first tokens results next derived
  cases derived with
  | none isClosing => exact ⟨_, respelled_singleton _, .none isClosing⟩
  | some inner few isClosing =>
    obtain ⟨respelled, isRespelled, derived⟩ := separated_respells items inner
    refine ⟨respelled ++ [_], List.rel_append isRespelled (respelled_singleton _),
      .some derived ?_ isClosing⟩
    rw [List.length_map]
    exact few

/-- An expression that may be missing is spelled anew if it is there. -/
theorem optional_respells
    {expression : Phrase Expr}
    {chosen : List Bool}
    (expressions : Respells spelling (Expr.respell spelling chosen) expression) :
    Respells spelling (Expr.optionRespell spelling chosen) (Optional expression) := by
  intro first tokens result next derived
  cases derived with
  | none => exact ⟨[], .nil, .none⟩
  | some only =>
    obtain ⟨respelled, isRespelled, derived⟩ := expressions only
    exact ⟨respelled, isRespelled, .some derived⟩

/-- An identifier is derived under its new spelling. -/
theorem identifier_respells (chosen : Bool) :
    Respells spelling (Token.respell spelling chosen) (Terminal .identifier) := by
  rintro first tokens result next ⟨isName⟩
  exact ⟨[_], .cons (respelled_identifier spelling chosen isName) .nil, .token isName⟩

end Lists

/-! ## Expressions -/

section Expressions

variable {operand expression : Phrase Expr} {chosen : List Bool}

/-- A primary expression is derived spelled anew if the expressions inside of it are. -/
theorem primary_respells
    (numbered : ∀ id, spelling.number id = id)
    (expressions : Respells spelling (Expr.respell spelling chosen) expression) :
    Respells spelling (Expr.respell spelling chosen) (Primary expression) := by
  intro first tokens result next derived
  cases derived with
  | literal found =>
    rw [Expr.respell]
    exact ⟨_, respelled_singleton _, .literal found⟩
  | name isName =>
    rw [Expr.respell, Reference.respell, numbered]
    exact ⟨[_], .cons (respelled_identifier spelling _ isName) .nil, .name isName⟩
  | self isKeyword =>
    rw [Expr.respell, Reference.move, numbered]
    exact ⟨_, respelled_singleton _, .self isKeyword⟩
  | inherited isKeyword isDot isName =>
    rw [Expr.respell, Reference.move, numbered]
    exact ⟨_, respelled_cons _ (respelled_cons _ (respelled_singleton _)),
      .inherited isKeyword isDot isName⟩
  | grouping isOpening inside isClosing =>
    obtain ⟨respelled, isRespelled, derived⟩ := expressions inside
    rw [Expr.respell]
    exact ⟨_, respelled_cons _ (List.rel_append isRespelled (respelled_singleton _)),
      .grouping isOpening derived isClosing⟩

/-- So is a chain of calls and properties. -/
theorem call_respells
    (numbered : ∀ id, spelling.number id = id)
    (expressions : Respells spelling (Expr.respell spelling chosen) expression) :
    Respells spelling (Expr.respell spelling chosen) (Call expression) := by
  intro first tokens result next derived
  induction derived with
  | primary only =>
    obtain ⟨respelled, isRespelled, derived⟩ := primary_respells numbered expressions only
    exact ⟨respelled, isRespelled, .primary derived⟩
  | call before isOpening inside inductionHypothesis =>
    obtain ⟨respelled, isRespelled, derived⟩ := inductionHypothesis
    obtain ⟨arguments, areRespelled, listed⟩ := listed_respells expressions inside
    rw [Expr.respell, Expr.listRespell_eq_map]
    exact ⟨_, List.rel_append isRespelled (respelled_cons _ areRespelled),
      .call derived isOpening listed⟩
  | property before isDot isName inductionHypothesis =>
    obtain ⟨respelled, isRespelled, derived⟩ := inductionHypothesis
    rw [Expr.respell]
    exact ⟨_, List.rel_append isRespelled (respelled_cons _ (respelled_singleton _)),
      .property derived isDot isName⟩

/-- So is a unary expression. -/
theorem unary_respells
    (numbered : ∀ id, spelling.number id = id)
    (operands : Respells spelling (Expr.respell spelling chosen) operand)
    (expressions : Respells spelling (Expr.respell spelling chosen) expression) :
    Respells spelling (Expr.respell spelling chosen) (Unary operand expression) := by
  intro first tokens result next derived
  cases derived with
  | operator isOperator inside =>
    obtain ⟨respelled, isRespelled, derived⟩ := operands inside
    rw [Expr.respell]
    exact ⟨_, respelled_cons _ isRespelled, .operator isOperator derived⟩
  | call only =>
    obtain ⟨respelled, isRespelled, derived⟩ := call_respells numbered expressions only
    exact ⟨respelled, isRespelled, .call derived⟩

/-- A chain of operators is derived spelled anew if combining two operands goes along. -/
theorem leftAssociative_respells
    {operators : List Token.Kind}
    {combine : Expr -> Token -> Expr -> Expr}
    (combined : ∀ left operator right,
      (combine left operator right).respell spelling chosen =
        combine (left.respell spelling chosen) (operator.respell spelling false)
          (right.respell spelling chosen))
    (operands : Respells spelling (Expr.respell spelling chosen) operand) :
    Respells spelling (Expr.respell spelling chosen)
      (LeftAssociative operators combine operand) := by
  intro first tokens result next derived
  induction derived with
  | operand only =>
    obtain ⟨respelled, isRespelled, derived⟩ := operands only
    exact ⟨respelled, isRespelled, .operand derived⟩
  | combined before isOperator after inductionHypothesis =>
    obtain ⟨respelled, isRespelled, derived⟩ := inductionHypothesis
    obtain ⟨rightRespelled, rightIsRespelled, rightDerived⟩ := operands after
    rw [combined]
    exact ⟨_, List.rel_append isRespelled (respelled_cons _ rightIsRespelled),
      .combined derived isOperator rightDerived⟩

theorem respell_binary (left : Expr) (operator : Token) (right : Expr) :
    (Expr.binary left operator right).respell spelling chosen =
      .binary (left.respell spelling chosen) (operator.respell spelling false)
        (right.respell spelling chosen) := by
  rw [Expr.respell]

theorem respell_logical (left : Expr) (operator : Token) (right : Expr) :
    (Expr.logical left operator right).respell spelling chosen =
      .logical (left.respell spelling chosen) (operator.respell spelling false)
        (right.respell spelling chosen) := by
  rw [Expr.respell]

/-- Binary and logical expressions of every rank are derived spelled anew. -/
theorem logicOr_respells
    (operands : Respells spelling (Expr.respell spelling chosen) operand) :
    Respells spelling (Expr.respell spelling chosen) (LogicOr operand) :=
  leftAssociative_respells respell_logical <| leftAssociative_respells respell_logical <|
    leftAssociative_respells respell_binary <| leftAssociative_respells respell_binary <|
      leftAssociative_respells respell_binary <|
        leftAssociative_respells respell_binary operands

/-- An assignment is derived with its target and its value spelled anew. -/
theorem assignment_respells
    (numbered : ∀ id, spelling.number id = id)
    (operands : Respells spelling (Expr.respell spelling chosen) operand)
    (expressions : Respells spelling (Expr.respell spelling chosen) expression) :
    Respells spelling (Expr.respell spelling chosen)
      (Assignment (Unary operand expression) expression) := by
  intro first tokens result next derived
  cases derived with
  | named isName isEquals right =>
    obtain ⟨respelled, isRespelled, derived⟩ := expressions right
    rw [Expr.respell, Reference.respell, numbered]
    exact ⟨_ :: _, .cons (respelled_identifier spelling _ isName) (respelled_cons _ isRespelled),
      .named isName isEquals derived⟩
  | property left isDot isName isEquals right =>
    obtain ⟨respelled, isRespelled, derived⟩ := call_respells numbered expressions left
    obtain ⟨rightRespelled, rightIsRespelled, rightDerived⟩ := expressions right
    rw [Expr.respell]
    exact ⟨_, List.rel_append isRespelled
        (respelled_cons _ (respelled_cons _ (respelled_cons _ rightIsRespelled))),
      .property derived isDot isName isEquals rightDerived⟩
  | operators only =>
    obtain ⟨respelled, isRespelled, derived⟩ :=
      logicOr_respells (unary_respells numbered operands expressions) only
    exact ⟨respelled, isRespelled, .operators derived⟩

/-- Expressions and operands are derived spelled anew, however deeply they are nested. -/
theorem expression_and_operand_respell
    (numbered : ∀ id, spelling.number id = id)
    (chosen : List Bool)
    (room : Nat) :
    Respells spelling (Expr.respell spelling chosen) (Expression room) ∧
      Respells spelling (Expr.respell spelling chosen) (Operand room) := by
  induction room with
  | zero =>
    constructor
    · intro first tokens result next impossible
      exact impossible.elim
    · intro first tokens result next impossible
      exact impossible.elim
  | succ room inductionHypothesis =>
    obtain ⟨expressions, operands⟩ := inductionHypothesis
    exact ⟨assignment_respells numbered operands expressions,
      unary_respells numbered operands expressions⟩

/-- Every expression is derived spelled anew. -/
theorem expression_respells
    (numbered : ∀ id, spelling.number id = id)
    (chosen : List Bool)
    (room : Nat) :
    Respells spelling (Expr.respell spelling chosen) (Expression room) :=
  (expression_and_operand_respell numbered chosen room).1

end Expressions

section Statements

variable
  {expression : Phrase Expr}
  {statement : Bool -> Phrase Stmt}
  {block : Phrase (List Stmt)}
  {chosen : List Bool}

/-- An expression statement is spelled anew as its expression is. -/
theorem expressionStatement_respells
    (expressions : ∀ chosen, Respells spelling (Expr.respell spelling chosen) expression)
    (choice : Choice)
    (chosen : List Bool) :
    Respells spelling (Stmt.respell spelling choice chosen) (ExpressionStatement expression) := by
  rintro first tokens result next ⟨inside, isSemicolon⟩
  obtain ⟨respelled, isRespelled, derived⟩ := expressions chosen inside
  rw [Stmt.respell]
  exact ⟨_, List.rel_append isRespelled (respelled_singleton _), .mk derived isSemicolon⟩

/-- An initializer is spelled anew, if there is one. -/
theorem initializer_respells
    (expressions : Respells spelling (Expr.respell spelling chosen) expression) :
    Respells spelling (Expr.optionRespell spelling chosen) (Initializer expression) := by
  intro first tokens result next derived
  cases derived with
  | none => exact ⟨[], .nil, .none⟩
  | some isEquals inside =>
    obtain ⟨respelled, isRespelled, derived⟩ := expressions inside
    exact ⟨_, respelled_cons _ isRespelled, .some isEquals derived⟩

/-- A variable declaration is derived with its name and its initializer spelled anew. -/
theorem variableDeclaration_respells
    (expressions : ∀ chosen, Respells spelling (Expr.respell spelling chosen) expression)
    (choice : Choice)
    (chosen : List Bool) :
    Respells spelling (Stmt.respell spelling choice chosen) (VariableDeclaration expression) := by
  rintro first tokens result next ⟨isName, inside, isSemicolon⟩
  obtain ⟨respelled, isRespelled, derived⟩ := initializer_respells (expressions chosen) inside
  rw [Stmt.respell]
  exact ⟨_ :: _, .cons (respelled_identifier spelling _ isName)
    (List.rel_append isRespelled (respelled_singleton _)), .mk isName derived isSemicolon⟩

/-- What begins a loop is derived spelled anew. -/
theorem forInitializer_respells
    (expressions : ∀ chosen, Respells spelling (Expr.respell spelling chosen) expression)
    (choice : Choice)
    (chosen : List Bool) :
    Respells spelling (Stmt.optionRespell spelling choice chosen) (ForInitializer expression) := by
  intro first tokens result next derived
  cases derived with
  | none isSemicolon =>
    rw [Stmt.optionRespell]
    exact ⟨_, respelled_singleton _, .none isSemicolon⟩
  | variableDecl isWord inside =>
    obtain ⟨respelled, isRespelled, derived⟩ :=
      variableDeclaration_respells expressions choice chosen inside
    rw [Stmt.optionRespell]
    exact ⟨_, respelled_cons _ isRespelled, .variableDecl isWord derived⟩
  | expression only =>
    obtain ⟨respelled, isRespelled, derived⟩ :=
      expressionStatement_respells expressions choice chosen only
    rw [Stmt.optionRespell]
    exact ⟨respelled, isRespelled, .expression derived⟩

/-- A loop with a `for` header is spelled anew clause by clause.  A clause stands
in the scopes that the loop makes around it. -/
theorem respell_forLoop
    (spelling : Spelling)
    (choice : Choice)
    (chosen : List Bool)
    (initializer : Option Stmt)
    (condition increment : Option Expr)
    (body : Stmt) :
    ∃ startChoice bodyChoice outer inner,
      (Parse.forLoop initializer condition increment body).respell spelling choice chosen =
        Parse.forLoop (Stmt.optionRespell spelling startChoice outer initializer)
          (Expr.optionRespell spelling outer condition)
          (Expr.optionRespell spelling inner increment)
          (body.respell spelling bodyChoice inner) := by
  cases initializer with
  | none =>
    cases increment with
    | none =>
      refine ⟨choice, choice, chosen, chosen, ?_⟩
      cases condition <;> simp [Parse.forLoop, Expr.optionRespell]
    | some step =>
      refine ⟨choice, choice.left, chosen,
        spelling.chooses choice [body, .expression step] :: chosen, ?_⟩
      cases condition <;> simp [Parse.forLoop, Expr.optionRespell]
  | some start =>
    cases increment with
    | none =>
      refine ⟨choice.left, choice.right.left,
        spelling.chooses choice [start, Parse.forLoop none condition none body] :: chosen,
        spelling.chooses choice [start, Parse.forLoop none condition none body] :: chosen, ?_⟩
      cases condition <;> simp [Parse.forLoop, Expr.optionRespell]
    | some step =>
      refine ⟨choice.left, choice.right.left.left,
        spelling.chooses choice [start, Parse.forLoop none condition (some step) body] :: chosen,
        spelling.chooses choice.right.left [body, .expression step] ::
          spelling.chooses choice [start, Parse.forLoop none condition (some step) body] :: chosen,
        ?_⟩
      cases condition <;> simp [Parse.forLoop, Expr.optionRespell]

/-- A statement is derived spelled anew if its parts are. -/
theorem statement_respells
    (expressions : ∀ chosen, Respells spelling (Expr.respell spelling chosen) expression)
    (statements : ∀ choice chosen dangling,
      Respells spelling (Stmt.respell spelling choice chosen) (statement dangling))
    (blocks : ∀ choice chosen,
      Respells spelling (Stmt.listRespell spelling choice chosen) block)
    (choice : Choice)
    (chosen : List Bool)
    (dangling : Bool) :
    Respells spelling (Stmt.respell spelling choice chosen)
      (Statement expression statement block dangling) := by
  intro first tokens result next derived
  cases derived with
  | expression only =>
    obtain ⟨respelled, isRespelled, derived⟩ :=
      expressionStatement_respells expressions choice chosen only
    exact ⟨respelled, isRespelled, .expression derived⟩
  | print isWord inside isSemicolon =>
    obtain ⟨respelled, isRespelled, derived⟩ := expressions chosen inside
    rw [Stmt.respell]
    exact ⟨_, respelled_cons _ (List.rel_append isRespelled (respelled_singleton _)),
      .print isWord derived isSemicolon⟩
  | returns isWord inside isSemicolon =>
    obtain ⟨respelled, isRespelled, derived⟩ := optional_respells (expressions chosen) inside
    rw [Stmt.respell]
    exact ⟨_, respelled_cons _ (List.rel_append isRespelled (respelled_singleton _)),
      .returns isWord derived isSemicolon⟩
  | block isOpening inside =>
    obtain ⟨respelled, isRespelled, derived⟩ := blocks choice _ inside
    rw [Stmt.respell]
    exact ⟨_, respelled_cons _ isRespelled, .block isOpening derived⟩
  | loop isWord isOpening inside isClosing repeated =>
    obtain ⟨tested, isTested, condition⟩ := expressions chosen inside
    obtain ⟨respelled, isRespelled, body⟩ := statements choice chosen _ repeated
    rw [Stmt.respell]
    exact ⟨_, respelled_cons _ (respelled_cons _
        (List.rel_append isTested (respelled_cons _ isRespelled))),
      .loop isWord isOpening condition isClosing body⟩
  | @forLoop _ _ _ _ _ _ _ _ _ _ _ _ _ _ initializer condition increment body isWord isOpening
      start test isSemicolon step isClosing repeated =>
    obtain ⟨startChoice, bodyChoice, outer, inner, clauses⟩ :=
      respell_forLoop spelling choice chosen initializer condition increment body
    obtain ⟨startTokens, startRespelled, startDerived⟩ :=
      forInitializer_respells expressions startChoice outer start
    obtain ⟨testTokens, testRespelled, testDerived⟩ := optional_respells (expressions outer) test
    obtain ⟨stepTokens, stepRespelled, stepDerived⟩ := optional_respells (expressions inner) step
    obtain ⟨bodyTokens, bodyRespelled, bodyDerived⟩ := statements bodyChoice inner _ repeated
    rw [clauses]
    exact ⟨_, respelled_cons _ (respelled_cons _ (List.rel_append startRespelled
        (List.rel_append testRespelled (respelled_cons _ (List.rel_append stepRespelled
          (respelled_cons _ bodyRespelled)))))),
      .forLoop isWord isOpening startDerived testDerived isSemicolon stepDerived isClosing
        bodyDerived⟩
  | conditional isWord isOpening inside isClosing whenTrue =>
    obtain ⟨tested, isTested, condition⟩ := expressions chosen inside
    obtain ⟨respelled, isRespelled, branch⟩ := statements choice.left chosen _ whenTrue
    rw [Stmt.respell, Stmt.optionRespell]
    exact ⟨_, respelled_cons _ (respelled_cons _
        (List.rel_append isTested (respelled_cons _ isRespelled))),
      .conditional isWord isOpening condition isClosing branch⟩
  | alternative isWord isOpening inside isClosing whenTrue isOtherwise whenFalse =>
    obtain ⟨tested, isTested, condition⟩ := expressions chosen inside
    obtain ⟨thenTokens, thenRespelled, thenBranch⟩ := statements choice.left chosen _ whenTrue
    obtain ⟨elseTokens, elseRespelled, elseBranch⟩ := statements choice.right chosen _ whenFalse
    rw [Stmt.respell, Stmt.optionRespell]
    exact ⟨_, respelled_cons _ (respelled_cons _ (List.rel_append isTested (respelled_cons _
        (List.rel_append thenRespelled (respelled_cons _ elseRespelled))))),
      .alternative isWord isOpening condition isClosing thenBranch isOtherwise elseBranch⟩

/-- A function is derived with its parameters and its body spelled anew. -/
theorem function_respells
    (blocks : ∀ choice chosen,
      Respells spelling (Stmt.listRespell spelling choice chosen) block)
    (choice : Choice)
    (chosen : List Bool) :
    Respells spelling (FunctionDecl.respell spelling choice chosen) (Function block) := by
  rintro first tokens result next ⟨isName, isOpening, listed, isBrace, inside⟩
  obtain ⟨parameterTokens, parametersRespelled, parameters⟩ :=
    listed_respells (identifier_respells _) listed
  obtain ⟨bodyTokens, bodyRespelled, body⟩ := blocks choice _ inside
  rw [FunctionDecl.respell]
  exact ⟨_, respelled_cons _ (respelled_cons _ (List.rel_append parametersRespelled
      (respelled_cons _ bodyRespelled))), .mk isName isOpening parameters isBrace body⟩

/-- A superclass is spelled anew, if there is one. -/
theorem superclass_respells
    (numbered : ∀ id, spelling.number id = id)
    (chosen : List Bool) :
    Respells spelling (Option.map (Reference.respell spelling chosen)) Superclass := by
  intro first tokens result next derived
  cases derived with
  | none => exact ⟨[], .nil, .none⟩
  | some isLess isName =>
    rw [Option.map_some, Reference.respell, numbered]
    exact ⟨_, respelled_cons _ (.cons (respelled_identifier spelling _ isName) .nil),
      .some isLess isName⟩

/-- A declaration is derived spelled anew if its parts are. -/
theorem declaration_respells
    (numbered : ∀ id, spelling.number id = id)
    (expressions : ∀ chosen, Respells spelling (Expr.respell spelling chosen) expression)
    (statements : ∀ choice chosen dangling,
      Respells spelling (Stmt.respell spelling choice chosen) (statement dangling))
    (blocks : ∀ choice chosen,
      Respells spelling (Stmt.listRespell spelling choice chosen) block)
    (choice : Choice)
    (chosen : List Bool) :
    Respells spelling (Stmt.respell spelling choice chosen)
      (Declaration expression statement block) := by
  intro first tokens result next derived
  cases derived with
  | classDecl isWord isName inherits isOpening inside isClosing =>
    obtain ⟨superclassTokens, superclassRespelled, superclass⟩ :=
      superclass_respells numbered chosen inherits
    obtain ⟨methodTokens, methodsRespelled, methods⟩ :=
      repeated_respells (fun position => function_respells blocks (choice.nth position) _) inside
    rw [Stmt.respell, FunctionDecl.listRespell_eq_mapIdx]
    exact ⟨_, respelled_cons _ (respelled_cons _ (List.rel_append superclassRespelled
        (respelled_cons _ (List.rel_append methodsRespelled (respelled_singleton _))))),
      .classDecl isWord isName superclass isOpening methods isClosing⟩
  | function isWord inside =>
    obtain ⟨respelled, isRespelled, derived⟩ := function_respells blocks choice chosen inside
    rw [Stmt.respell]
    exact ⟨_, respelled_cons _ isRespelled, .function isWord derived⟩
  | variableDecl isWord inside =>
    obtain ⟨respelled, isRespelled, derived⟩ :=
      variableDeclaration_respells expressions choice chosen inside
    exact ⟨_, respelled_cons _ isRespelled, .variableDecl isWord derived⟩
  | statement only =>
    obtain ⟨respelled, isRespelled, derived⟩ := statements choice chosen _ only
    exact ⟨respelled, isRespelled, .statement derived⟩

/-- Declarations are spelled anew one by one. -/
theorem declarations_respell
    {declaration : Phrase Stmt}
    (declarations : ∀ choice chosen,
      Respells spelling (Stmt.respell spelling choice chosen) declaration)
    (choice : Choice)
    (chosen : List Bool) :
    Respells spelling (Stmt.listRespell spelling choice chosen) (Repeated declaration) := by
  intro first tokens result next derived
  obtain ⟨respelled, isRespelled, derived⟩ :=
    repeated_respells (fun position => declarations (choice.nth position) chosen) derived
  rw [Stmt.listRespell_eq_mapIdx]
  exact ⟨respelled, isRespelled, derived⟩

/-- A block is derived with its declarations spelled anew. -/
theorem block_respells
    {declaration : Phrase Stmt}
    (declarations : ∀ choice chosen,
      Respells spelling (Stmt.respell spelling choice chosen) declaration)
    (choice : Choice)
    (chosen : List Bool) :
    Respells spelling (Stmt.listRespell spelling choice chosen) (Block declaration) := by
  rintro first tokens result next ⟨inside, isClosing⟩
  obtain ⟨respelled, isRespelled, derived⟩ :=
    declarations_respell declarations choice chosen inside
  exact ⟨_, List.rel_append isRespelled (respelled_singleton _), .mk derived isClosing⟩

end Statements

/-- Statements and blocks are derived spelled anew, however deeply they are nested. -/
theorem statementWithin_and_blockWithin_respell
    (numbered : ∀ id, spelling.number id = id)
    (room : Nat) :
    (∀ choice chosen dangling,
        Respells spelling (Stmt.respell spelling choice chosen)
          (StatementWithin room dangling)) ∧
      ∀ choice chosen,
        Respells spelling (Stmt.listRespell spelling choice chosen) (BlockWithin room) := by
  induction room with
  | zero =>
    constructor
    · intro choice chosen dangling first tokens result next impossible
      exact impossible.elim
    · intro choice chosen first tokens result next impossible
      exact impossible.elim
  | succ room inductionHypothesis =>
    obtain ⟨statements, blocks⟩ := inductionHypothesis
    have expressions : ∀ chosen,
        Respells spelling (Expr.respell spelling chosen) (Expression room) :=
      fun chosen => expression_respells numbered chosen room
    exact ⟨statement_respells expressions statements blocks,
      block_respells (declaration_respells numbered expressions statements blocks)⟩

/-- A program that is spelled anew is derived from tokens that are spelled
anew. -/
theorem program_respells
    (numbered : ∀ id, spelling.number id = id)
    (choice : Choice)
    (chosen : List Bool) :
    Respells spelling (Stmt.listRespell spelling choice chosen) Program := by
  obtain ⟨statements, blocks⟩ := statementWithin_and_blockWithin_respell numbered Parse.maxNesting
  exact declarations_respell (declaration_respells numbered
    (fun chosen => expression_respells numbered chosen Parse.maxNesting) statements blocks)
    choice chosen

end Grammar
end TreeWalk
