import TreeWalk.Proofs.Renumbering
import TreeWalk.Proofs.Resolution.Site
import TreeWalk.Proofs.Syntax.Words

/-!
# Printed trees are unambiguous

The outline of a printed tree can be read back.  Words are scanned as single tokens, and
the first word of a list says which node it is, except that a sign and an operator are
told apart by the number of their operands, and the two kinds of assignment by their
targets.  Main statement: two statements, or two expressions, that are parsed without
errors, as a whole or as parts of others, contain no strings and only finite numbers, and
are printed alike, are the same tree but for the numbers of references and the lines of
tokens.
-/

namespace TreeWalk

/-- The token of a kind that has only one spelling. -/
def Token.spelled (kind : Token.Kind) : Token :=
  ⟨kind, kind.text?.getD "", 0⟩

/-- What an outline can be read as: a word, a list of names, an expression, a statement, or
a method. -/
structure Reading where
  word : Option String := none
  names : Option (List Token) := none
  expression : Option Expr := none
  statement : Option Stmt := none
  method : Option FunctionDecl := none

namespace Reading

/-- The token of a word. -/
def token (reading : Reading) : Option Token :=
  reading.word.bind Token.ofWord?

/-- The expression that consists of a token. -/
def leaf (token : Token) : Option Expr :=
  match token.kind with
  | .identifier => some (.read ⟨0, token⟩)
  | .keyword .thisWord => some (.self ⟨0, token⟩)
  | kind => (Grammar.literal? kind).map .literal

/-- The assignment of a value to what is written on its left. -/
def assignment (value : Expr) : Expr -> Option Expr
  | .read target => some (.assign target value)
  | .property object name => some (.setProperty object name value)
  | _ => none

/-- The expression with an operator between its operands. -/
def operation (left : Expr) (operator : Token) (right : Expr) : Expr :=
  if operator.kind ∈ Role.kinds .connective then .logical left operator right
  else .binary left operator right

/-- The expression whose list begins with the given word. -/
def expressionOf (head : String) (parts : List Reading) : Option Expr :=
  match head, parts with
  | "group", [inner] => inner.expression.map .grouping
  | "call", callee :: arguments => do
    return .call (← callee.expression) (.spelled (.symbol .rightParen))
      (← arguments.mapM Reading.expression)
  | "super", [method] => do
    return .inherited ⟨0, .spelled (.keyword .superWord)⟩ (← method.token)
  | ".", [object, name] => do return .property (← object.expression) (← name.token)
  | "=", [target, value] => do assignment (← value.expression) (← target.expression)
  | _, [right] => do return .unary (← Token.ofWord? head) (← right.expression)
  | _, [left, right] => do
    return operation (← left.expression) (← Token.ofWord? head) (← right.expression)
  | _, _ => none

/-- The function with the given name, parameters and body. -/
def functionOf : List Reading -> Option FunctionDecl
  | name :: parameters :: body => do
    return ⟨← name.token, ← parameters.names, ← body.mapM Reading.statement⟩
  | _ => none

/-- The superclass in the head of a class, and what follows it. -/
def superclassOf : List Reading -> Option (Option Reference × List Reading)
  | less :: name :: methods =>
    if less.word = some "<" then do return (some ⟨0, ← name.token⟩, methods)
    else some (none, less :: name :: methods)
  | methods => some (none, methods)

/-- The statement whose list begins with the given word. -/
def statementOf (head : String) (parts : List Reading) : Option Stmt :=
  match head, parts with
  | ";", [value] => value.expression.map .expression
  | "print", [value] => value.expression.map .print
  | "var", [name] => do return .declare (← name.token) none
  | "var", [name, value] => do return .declare (← name.token) (some (← value.expression))
  | "block", body => (body.mapM Reading.statement).map .block
  | "if", [condition, thenBranch] => do
    return .conditional (← condition.expression) (← thenBranch.statement) none
  | "if", [condition, thenBranch, elseBranch] => do
    return .conditional (← condition.expression) (← thenBranch.statement)
      (some (← elseBranch.statement))
  | "while", [condition, body] => do
    return .loop (← condition.expression) (← body.statement)
  | "fn", parts => (functionOf parts).map .function
  | "return", [] => some (.returns (.spelled (.keyword .returnWord)) none)
  | "return", [value] => do
    return .returns (.spelled (.keyword .returnWord)) (some (← value.expression))
  | "class", name :: others => do
    let (superclass, methods) ← superclassOf others
    return .classDecl (← name.token) superclass (← methods.mapM Reading.method)
  | _, _ => none

/-- Read a word. -/
def ofWord (text : String) : Reading where
  word := some text
  expression := (Token.ofWord? text).bind leaf

/-- Read a list, given the readings of its parts. -/
def ofList (parts : List Reading) : Reading where
  names := parts.mapM token
  expression := do expressionOf (← (← parts.head?).word) parts.tail
  statement := do statementOf (← (← parts.head?).word) parts.tail
  method := do
    if (← (← parts.head?).word) = "method" then functionOf parts.tail else none

end Reading

mutual

/-- Read an outline. -/
def Outline.read : Outline -> Reading
  | .word text => .ofWord text
  | .list parts => .ofList (Outline.readEach parts)

/-- Read outlines one after the other. -/
def Outline.readEach : List Outline -> List Reading
  | [] => []
  | first :: rest => first.read :: Outline.readEach rest

end

/-- An expression without the numbers of its references and the lines of its tokens. -/
def Expr.bare (expression : Expr) : Expr :=
  (expression.renumber fun _ => 0).reline fun _ => 0

/-- A statement without the numbers of its references and the lines of its tokens. -/
def Stmt.bare (statement : Stmt) : Stmt :=
  (statement.renumber fun _ => 0).reline fun _ => 0

/-- An expression without strings and infinite numbers. -/
def Expr.IsLegible (expression : Expr) : Prop :=
  ∀ leaf ∈ expression.leaves, leaf.IsLegible

/-- A statement without strings and infinite numbers. -/
def Stmt.IsLegible (statement : Stmt) : Prop :=
  ∀ leaf ∈ statement.leaves, leaf.IsLegible

instance (expression : Expr) : Decidable expression.IsLegible :=
  inferInstanceAs (Decidable (∀ leaf ∈ expression.leaves, leaf.IsLegible))

instance (statement : Stmt) : Decidable statement.IsLegible :=
  inferInstanceAs (Decidable (∀ leaf ∈ statement.leaves, leaf.IsLegible))

/-- A leaf can be read back. -/
def Leaf.IsReadable (leaf : Leaf) : Prop :=
  leaf.Fits Token.IsScanned ∧ leaf.IsLegible

section Reading

open Reading

@[simp] theorem Outline.token_read_word (text : String) :
    (read (.word text)).token = Token.ofWord? text := by
  rw [Outline.read]
  rfl

@[simp] theorem Outline.expression_read_word (text : String) :
    (read (.word text)).expression = (Token.ofWord? text).bind Reading.leaf := by
  rw [Outline.read]
  rfl

@[simp] theorem Outline.expression_read_node (head : String) (parts : List Outline) :
    (read (node head parts)).expression = expressionOf head (readEach parts) := by
  rw [node, Outline.read, readEach, Outline.read]
  rfl

@[simp] theorem Outline.statement_read_node (head : String) (parts : List Outline) :
    (read (node head parts)).statement = statementOf head (readEach parts) := by
  rw [node, Outline.read, readEach, Outline.read]
  rfl

section Words

variable {token : Token}

/-- The word of a readable token scans to that token, but for its line. -/
theorem Leaf.IsReadable.ofWord?
    {role : Role}
    (readable : (Leaf.token role token).IsReadable) :
    Token.ofWord? token.lexeme = some (token.reline fun _ => 0) :=
  readable.1.2.ofWord?

/-- A token with only one spelling is known from its role. -/
theorem Leaf.IsReadable.spelled
    {role : Role}
    {kind : Token.Kind}
    {text : String}
    (readable : (Leaf.token role token).IsReadable)
    (onlyKind : role.kinds = [kind])
    (isText : kind.text? = some text) :
    token.reline (fun _ => 0) = .spelled kind := by
  obtain ⟨⟨suitable, scanned⟩, -⟩ := readable
  rw [onlyKind, List.mem_singleton] at suitable
  subst suitable
  rw [Token.reline, Token.spelled, scanned.lexeme_eq isText, isText]
  rfl

namespace Reading

/-- A token of a literal is read as that literal. -/
theorem leaf_of_literal
    {value : Literal}
    (isLiteral : Grammar.literal? token.kind = some value) :
    leaf token = some (.literal value) := by
  unfold leaf
  split
  · rename_i isName
    rw [isName] at isLiteral
    cases isLiteral
  · rename_i isThis
    rw [isThis] at isLiteral
    cases isLiteral
  · rw [isLiteral]
    rfl

variable {left right : Reading} {leftValue rightValue : Expr}

/-- A sign with one operand is read as a unary operation. -/
theorem expressionOf_sign
    (readable : (Leaf.token .sign token).IsReadable)
    (isRight : right.expression = some rightValue) :
    expressionOf token.lexeme [right] =
      some (.unary (token.reline fun _ => 0) rightValue) := by
  have word := readable.ofWord?
  have member := readable.1.2.lexeme_mem_spellings readable.1.1 (by decide)
  simp only [Role.spellings, List.mem_cons, List.not_mem_nil, or_false] at member
  rcases member with isText | isText <;>
    · rw [isText] at word ⊢
      simp [expressionOf, word, isRight]

/-- An operator between two operands is read as a binary operation. -/
theorem operation_of_operator (suitable : token.kind ∈ Role.kinds .operator) :
    operation leftValue (token.reline fun _ => 0) rightValue =
      .binary leftValue (token.reline fun _ => 0) rightValue := by
  have differs : ∀ kind ∈ Role.kinds .operator, kind ∉ Role.kinds .connective := by decide
  exact if_neg (differs _ suitable)

/-- A connective between two operands is read as a logical operation. -/
theorem operation_of_connective (suitable : token.kind ∈ Role.kinds .connective) :
    operation leftValue (token.reline fun _ => 0) rightValue =
      .logical leftValue (token.reline fun _ => 0) rightValue :=
  if_pos suitable

/-- A word of one of the operators, before two operands. -/
theorem expressionOf_operation
    {role : Role}
    (isOperation : role = .operator ∨ role = .connective)
    (readable : (Leaf.token role token).IsReadable)
    (isLeft : left.expression = some leftValue)
    (isRight : right.expression = some rightValue) :
    expressionOf token.lexeme [left, right] =
      some (operation leftValue (token.reline fun _ => 0) rightValue) := by
  have word := readable.ofWord?
  rcases isOperation with rfl | rfl
  · have member := readable.1.2.lexeme_mem_spellings readable.1.1 (by decide)
    simp only [Role.spellings, List.mem_cons, List.not_mem_nil, or_false] at member
    rcases member with isText | isText | isText | isText | isText | isText | isText | isText |
        isText | isText <;>
      · rw [isText] at word ⊢
        simp [expressionOf, word, isLeft, isRight]
  · have member := readable.1.2.lexeme_mem_spellings readable.1.1 (by decide)
    simp only [Role.spellings, List.mem_cons, List.not_mem_nil, or_false] at member
    rcases member with isText | isText <;>
      · rw [isText] at word ⊢
        simp [expressionOf, word, isLeft, isRight]

end Reading

end Words

mutual

/-- The outline of an expression is read as that expression. -/
theorem Expr.read_outline : ∀ expression : Expr,
    (∀ leaf ∈ expression.leaves, leaf.IsReadable) ->
      expression.outline.read.expression = some expression.bare
  | .literal value, readable => by
    rw [Expr.leaves, List.forall_mem_singleton] at readable
    obtain ⟨-, kind, isWord, isLiteral⟩ := Literal.ofWord?_render readable.1 readable.2
    rw [Expr.outline, Outline.expression_read_word, isWord]
    exact leaf_of_literal isLiteral
  | .grouping inner, readable => by
    rw [Expr.leaves] at readable
    have inside := inner.read_outline readable
    simp [Expr.outline, Outline.readEach, expressionOf, inside, Expr.bare, Expr.reline]
  | .unary operator right, readable => by
    rw [Expr.leaves, List.forall_mem_cons] at readable
    rw [Expr.outline, Outline.expression_read_node]
    exact expressionOf_sign readable.1 (right.read_outline readable.2)
  | .binary left operator right, readable => by
    rw [Expr.leaves, List.forall_mem_append, List.forall_mem_cons] at readable
    rw [Expr.outline, Outline.expression_read_node]
    have read := expressionOf_operation (.inl rfl) readable.2.1
      (left.read_outline readable.1) (right.read_outline readable.2.2)
    rw [operation_of_operator readable.2.1.1.1] at read
    exact read
  | .logical left operator right, readable => by
    rw [Expr.leaves, List.forall_mem_append, List.forall_mem_cons] at readable
    rw [Expr.outline, Outline.expression_read_node]
    have read := expressionOf_operation (.inr rfl) readable.2.1
      (left.read_outline readable.1) (right.read_outline readable.2.2)
    rw [operation_of_connective readable.2.1.1.1] at read
    exact read
  | .read target, readable => by
    rw [Expr.leaves, List.forall_mem_singleton] at readable
    have isName := List.mem_singleton.mp readable.1.1
    rw [Expr.outline, Outline.expression_read_word, readable.ofWord?]
    simp [leaf, isName, Expr.bare, Expr.reline, Reference.reline, Reference.renumber]
  | .assign target value, readable => by
    rw [Expr.leaves, List.forall_mem_cons] at readable
    have isName := List.mem_singleton.mp readable.1.1.1
    simp [Expr.outline, Outline.readEach, expressionOf, readable.1.ofWord?,
      value.read_outline readable.2, leaf, isName, assignment, Expr.bare, Expr.reline,
      Reference.reline, Reference.renumber]
  | .call callee paren arguments, readable => by
    rw [Expr.leaves, List.forall_mem_append, List.forall_mem_cons] at readable
    have closing := readable.2.1.spelled rfl rfl
    simp [Expr.outline, Outline.readEach, expressionOf, callee.read_outline readable.1,
      Expr.read_outlines arguments readable.2.2, closing, Expr.bare, Expr.reline]
  | .property object name, readable => by
    rw [Expr.leaves, List.forall_mem_append, List.forall_mem_singleton] at readable
    simp [Expr.outline, Outline.readEach, expressionOf, object.read_outline readable.1,
      readable.2.ofWord?, Expr.bare, Expr.reline]
  | .setProperty object name value, readable => by
    rw [Expr.leaves, List.forall_mem_append, List.forall_mem_cons] at readable
    simp [Expr.outline, Outline.readEach, expressionOf, object.read_outline readable.1,
      readable.2.1.ofWord?, value.read_outline readable.2.2, assignment, Expr.bare, Expr.reline]
  | .self keyword, readable => by
    rw [Expr.leaves, List.forall_mem_singleton] at readable
    have isThis := List.mem_singleton.mp readable.1.1
    have spelled : keyword.name.lexeme = "this" := readable.1.2.lexeme_eq (by rw [isThis]; rfl)
    rw [Expr.outline, Outline.expression_read_word, ← spelled, readable.ofWord?]
    simp [leaf, isThis, Expr.bare, Expr.reline, Reference.reline, Reference.renumber]
  | .inherited keyword method, readable => by
    rw [Expr.leaves, List.forall_mem_cons, List.forall_mem_singleton] at readable
    have ancestor := readable.1.spelled rfl rfl
    simp [Expr.outline, Outline.readEach, expressionOf, readable.2.ofWord?, ancestor, Expr.bare,
      Expr.reline, Reference.reline, Reference.renumber]

/-- The outlines of readable expressions are read back, but for ids and lines. -/
theorem Expr.read_outlines : ∀ expressions : List Expr,
    (∀ leaf ∈ Expr.listLeaves expressions, leaf.IsReadable) ->
      (Outline.readEach (Expr.outlines expressions)).mapM Reading.expression =
        some (Expr.listReline (fun _ => 0) (Expr.listRenumber (fun _ => 0) expressions))
  | [], _ => rfl
  | first :: rest, readable => by
    rw [Expr.listLeaves, List.forall_mem_append] at readable
    simp [Expr.outlines, Outline.readEach, first.read_outline readable.1,
      Expr.read_outlines rest readable.2, Expr.bare, Expr.listReline]

end

theorem Outline.word_read_node (head : String) (parts : List Outline) :
    (read (node head parts)).word = none := by
  rw [node, Outline.read]
  rfl

/-- A list of names is read back. -/
theorem Outline.names_read_words
    {names : List Token}
    (readable : ∀ leaf ∈ names.map (Leaf.token .name), leaf.IsReadable) :
    (read (.list (names.map fun name => .word name.lexeme))).names =
      some (names.map (·.reline fun _ => 0)) := by
  rw [Outline.read]
  change (readEach _).mapM Reading.token = _
  induction names with
  | nil => rfl
  | cons first others inductionHypothesis =>
    rw [List.map_cons, List.forall_mem_cons] at readable
    simp [readEach, readable.1.ofWord?, inductionHypothesis readable.2]

/-- A method is read as a function under its head. -/
theorem Outline.method_read_node (parts : List Outline) :
    (read (node "method" parts)).method = functionOf (readEach parts) := by
  rw [node, Outline.read, readEach, Outline.read]
  rfl

/-- Methods are no words, so none of them is taken for the sign before a superclass. -/
theorem Reading.superclassOf_methods (methods : List FunctionDecl) :
    superclassOf (Outline.readEach (FunctionDecl.outlines methods)) =
      some (none, Outline.readEach (FunctionDecl.outlines methods)) := by
  cases methods with
  | nil => rfl
  | cons first others =>
    cases others with
    | nil => rfl
    | cons second rest =>
      have isList : (first.outline "method").read.word = none := by
        obtain ⟨name, parameters, body⟩ := first
        rw [FunctionDecl.outline, Outline.word_read_node]
      simp [FunctionDecl.outlines, Outline.readEach, superclassOf, isList]

mutual

/-- The outline of a statement is read as that statement. -/
theorem Stmt.read_outline : ∀ statement : Stmt,
    (∀ leaf ∈ statement.leaves, leaf.IsReadable) ->
      statement.outline.read.statement = some statement.bare
  | .expression value, readable => by
    rw [Stmt.leaves] at readable
    have read := value.read_outline readable
    simp [Stmt.outline, Outline.readEach, statementOf, read, Stmt.bare, Stmt.reline, Expr.bare]
  | .print value, readable => by
    rw [Stmt.leaves] at readable
    have read := value.read_outline readable
    simp [Stmt.outline, Outline.readEach, statementOf, read, Stmt.bare, Stmt.reline, Expr.bare]
  | .declare name initializer, readable => by
    rw [Stmt.leaves, List.forall_mem_cons] at readable
    cases initializer with
    | none =>
      simp [Stmt.outline, Expr.optionOutlines, Outline.readEach, statementOf, readable.1.ofWord?,
        Stmt.bare, Stmt.reline]
    | some value =>
      simp [Stmt.outline, Expr.optionOutlines, Outline.readEach, statementOf, readable.1.ofWord?,
        value.read_outline readable.2, Stmt.bare, Stmt.reline, Expr.bare]
  | .block body, readable => by
    rw [Stmt.leaves] at readable
    have read := Stmt.read_outlines body readable
    simp [Stmt.outline, statementOf, read, Stmt.bare, Stmt.reline]
  | .conditional condition thenBranch elseBranch, readable => by
    rw [Stmt.leaves, List.forall_mem_append, List.forall_mem_append] at readable
    have branchRead := Stmt.read_optionOutline elseBranch readable.2.2
    cases elseBranch with
    | none =>
      simp [Stmt.outline, Stmt.optionOutlines, Outline.readEach, statementOf,
        condition.read_outline readable.1, thenBranch.read_outline readable.2.1, Stmt.bare,
        Stmt.reline, Stmt.optionReline, Expr.bare]
    | some branch =>
      simp [Stmt.outline, Stmt.optionOutlines, Outline.readEach, statementOf,
        condition.read_outline readable.1, thenBranch.read_outline readable.2.1,
        branchRead branch rfl, Stmt.bare, Stmt.reline, Stmt.optionReline, Expr.bare]
  | .loop condition body, readable => by
    rw [Stmt.leaves, List.forall_mem_append] at readable
    simp [Stmt.outline, Outline.readEach, statementOf, condition.read_outline readable.1,
      body.read_outline readable.2, Stmt.bare, Stmt.reline, Expr.bare]
  | .function declaration, readable => by
    rw [Stmt.leaves] at readable
    obtain ⟨parts, isNode, read⟩ := declaration.read_outline readable
    simp [Stmt.outline, isNode, statementOf, read, Stmt.bare, Stmt.reline]
  | .returns keyword value, readable => by
    rw [Stmt.leaves, List.forall_mem_cons] at readable
    have returning := readable.1.spelled rfl rfl
    cases value with
    | none =>
      simp [Stmt.outline, Expr.optionOutlines, Outline.readEach, statementOf, returning,
        Stmt.bare, Stmt.reline]
    | some value =>
      simp [Stmt.outline, Expr.optionOutlines, Outline.readEach, statementOf, returning,
        value.read_outline readable.2, Stmt.bare, Stmt.reline, Expr.bare]
  | .classDecl name superclass methods, readable => by
    rw [Stmt.leaves, List.forall_mem_cons, List.forall_mem_append] at readable
    have methodsRead := FunctionDecl.read_outlines methods readable.2.2
    cases superclass with
    | none =>
      simp [Stmt.outline, Reference.optionOutlines, Outline.readEach, statementOf,
        superclassOf_methods, readable.1.ofWord?, methodsRead, Stmt.bare, Stmt.reline]
    | some reference =>
      rw [Reference.optionLeaves, List.forall_mem_singleton] at readable
      have less : (Outline.read (.word "<")).word = some "<" := by
        rw [Outline.read]
        rfl
      simp [Stmt.outline, Reference.optionOutlines, Outline.readEach, statementOf, superclassOf,
        less, readable.1.ofWord?, readable.2.1.ofWord?, methodsRead, Stmt.bare, Stmt.reline,
        Reference.reline, Reference.renumber]

/-- The outlines of readable statements are read back, but for ids and lines. -/
theorem Stmt.read_outlines : ∀ statements : List Stmt,
    (∀ leaf ∈ Stmt.listLeaves statements, leaf.IsReadable) ->
      (Outline.readEach (Stmt.outlines statements)).mapM Reading.statement =
        some (Stmt.listReline (fun _ => 0) (Stmt.listRenumber (fun _ => 0) statements))
  | [], _ => by
    simp [Stmt.outlines, Outline.readEach, Stmt.listReline]
  | first :: rest, readable => by
    rw [Stmt.listLeaves, List.forall_mem_append] at readable
    simp [Stmt.outlines, Outline.readEach, first.read_outline readable.1,
      Stmt.read_outlines rest readable.2, Stmt.bare, Stmt.listReline]

/-- The outline of a readable branch is read back, but for ids and lines. -/
theorem Stmt.read_optionOutline : ∀ branch : Option Stmt,
    (∀ leaf ∈ Stmt.optionLeaves branch, leaf.IsReadable) ->
      ∀ statement, branch = some statement ->
        statement.outline.read.statement = some statement.bare
  | none, _, _, missing => nomatch missing
  | some branch, readable, statement, isBranch => by
    cases isBranch
    rw [Stmt.optionLeaves] at readable
    exact branch.read_outline readable

/-- The outline of a function is read as that function, after the word before it. -/
theorem FunctionDecl.read_outline : ∀ declaration : FunctionDecl,
    (∀ leaf ∈ declaration.leaves, leaf.IsReadable) ->
      ∃ parts, (∀ head, declaration.outline head = .node head parts) ∧
        functionOf (Outline.readEach parts) =
          some ((declaration.renumber fun _ => 0).reline fun _ => 0)
  | ⟨name, parameters, body⟩, readable => by
    rw [FunctionDecl.leaves, List.forall_mem_cons, List.forall_mem_append] at readable
    refine ⟨_, fun head => by rw [FunctionDecl.outline], ?_⟩
    simp [Outline.readEach, functionOf, readable.1.ofWord?,
      Outline.names_read_words readable.2.1, Stmt.read_outlines body readable.2.2,
      FunctionDecl.reline]

/-- The outlines of readable methods are read back, but for ids and lines. -/
theorem FunctionDecl.read_outlines : ∀ methods : List FunctionDecl,
    (∀ leaf ∈ FunctionDecl.listLeaves methods, leaf.IsReadable) ->
      (Outline.readEach (FunctionDecl.outlines methods)).mapM Reading.method =
        some (FunctionDecl.listReline (fun _ => 0) (FunctionDecl.listRenumber (fun _ => 0) methods))
  | [], _ => by
    simp [FunctionDecl.outlines, Outline.readEach, FunctionDecl.listReline]
  | first :: rest, readable => by
    rw [FunctionDecl.listLeaves, List.forall_mem_append] at readable
    obtain ⟨parts, isNode, read⟩ := first.read_outline readable.1
    simp [FunctionDecl.outlines, Outline.readEach, isNode, Outline.method_read_node, read,
      FunctionDecl.read_outlines rest readable.2, FunctionDecl.listReline]

end

end Reading

/-! ## Parts of parsed trees -/

/-- The leaves of a part of a program. -/
def Part.leaves : Part -> List Leaf
  | expression value => value.leaves
  | expressions values => Expr.listLeaves values
  | superclass reference => [.token .name reference.name]
  | statement step => step.leaves
  | statements steps => Stmt.listLeaves steps
  | function declaration => declaration.leaves
  | methods declarations => FunctionDecl.listLeaves declarations

namespace Site

/-- A part has no leaves but those of what it is a part of. -/
theorem leaves_children
    {site child : Site}
    (isChild : child ∈ site.children) :
    child.part.leaves ⊆ site.part.leaves := by
  cases child_of_mem_children isChild <;>
    grind [Part.leaves, Expr.leaves, Expr.listLeaves, Expr.optionLeaves, Stmt.leaves,
      Stmt.listLeaves, Stmt.optionLeaves, Reference.optionLeaves, FunctionDecl.leaves,
      FunctionDecl.listLeaves]

/-- The leaves of a part are among those of the root. -/
theorem Within.leaves_subset
    {root site : Site}
    (within : Within root site) :
    site.part.leaves ⊆ root.part.leaves := by
  induction within with
  | refl => exact List.Subset.refl _
  | step before isChild inductionHypothesis =>
    exact List.Subset.trans (leaves_children isChild) inductionHypothesis

/-- The statements of a list are visited one after the other. -/
theorem Within.exists_of_mem
    {root : Site}
    {around : Surroundings}
    {steps : List Stmt}
    {walk : Resolution}
    {value : Stmt}
    (within : Within root ⟨around, .statements steps, walk⟩)
    (member : value ∈ steps) :
    ∃ walk, Within root ⟨around, .statement value, walk⟩ := by
  induction steps generalizing walk with
  | nil => cases member
  | cons first rest inductionHypothesis =>
    obtain rfl | later := List.mem_cons.mp member
    · exact ⟨walk, .step within List.mem_cons_self⟩
    · exact inductionHypothesis (.step within (List.mem_cons_of_mem _ List.mem_cons_self)) later

end Site

namespace Part

/-- A part of a program, or of a single expression, that is parsed without errors. -/
inductive IsParsed : Part -> Prop
  | inProgram
      {source : String}
      {firstId : Nat}
      {site : Site}
      (noErrors : (parseProgram source firstId).errors = [])
      (within : Site.Within ⟨{}, .statements (parseProgram source firstId).result, {}⟩ site) :
      IsParsed site.part
  | inExpression
      {source : String}
      {value : Expr}
      {site : Site}
      (noErrors : (parseExpression source).errors = [])
      (parsed : (parseExpression source).result = some value)
      (within : Site.Within ⟨{}, .expression value, {}⟩ site) :
      IsParsed site.part

/-- An expression parsed without errors is a parsed part. -/
theorem isParsed_of_parseExpression
    {source : String}
    {value : Expr}
    (noErrors : (parseExpression source).errors = [])
    (parsed : (parseExpression source).result = some value) :
    (expression value).IsParsed :=
  @IsParsed.inExpression source value ⟨{}, .expression value, {}⟩ noErrors parsed .refl

/-- The statements of a program are parts of it. -/
theorem isParsed_of_parseProgram
    {source : String}
    {firstId : Nat}
    {value : Stmt}
    (noErrors : (parseProgram source firstId).errors = [])
    (member : value ∈ (parseProgram source firstId).result) :
    (statement value).IsParsed := by
  obtain ⟨walk, within⟩ := Site.Within.exists_of_mem .refl member
  exact @IsParsed.inProgram source firstId ⟨{}, .statement value, walk⟩ noErrors within

/-- The leaves of a parsed part are drawn from scanned tokens. -/
theorem IsParsed.fits
    {part : Part}
    (isParsed : part.IsParsed) :
    ∀ leaf ∈ part.leaves, leaf.Fits Token.IsScanned := by
  cases isParsed with
  | @inProgram source firstId site noErrors within =>
    have derived := Parse.program_of_parseTokens (Parsed.errors_withScan_eq_nil_iff.mp noErrors).2
    have fits := Grammar.program_draws derived (Scan.isScanned_tokens source)
    exact fun leaf member => fits leaf (within.leaves_subset member)
  | @inExpression source value site noErrors parsed within =>
    obtain ⟨scanned, clean⟩ := Parsed.errors_withScan_eq_nil_iff.mp noErrors
    obtain ⟨result, derived⟩ := Parse.expression_of_parseExpressionTokens clean
    rw [parseExpression_of_derived scanned derived] at parsed
    cases parsed
    have fits := Grammar.expression_draws _ derived (Scan.isScanned_tokens source)
    exact fun leaf member => fits leaf (within.leaves_subset member)

end Part

/-! ## Trees that are printed alike -/

/-- A readable leaf is clear. -/
theorem Leaf.IsReadable.clear {leaf : Leaf} (readable : leaf.IsReadable) : leaf.Clear :=
  Leaf.clear readable.1 readable.2

/-- Trees that can be read from the outlines that one text shows are equal. -/
theorem eq_of_shows
    {α : Type}
    {text : List Char}
    {outline other : Outline}
    (read : Outline -> Option α)
    {tree otherTree : α}
    (shows : Mark.Shows text outline.marks)
    (otherShows : Mark.Shows text other.marks)
    (isRead : read outline = some tree)
    (otherIsRead : read other = some otherTree) :
    tree = otherTree := by
  rw [outline_eq_of_shows shows otherShows, otherIsRead, Option.some_inj] at isRead
  exact isRead.symm

/-- Readable expressions that render to the same text are the same but for ids and lines.
-/
theorem Expr.bare_eq_of_render
    {first second : Expr}
    (firstReadable : ∀ leaf ∈ first.leaves, leaf.IsReadable)
    (secondReadable : ∀ leaf ∈ second.leaves, leaf.IsReadable)
    (same : first.render = second.render) :
    first.bare = second.bare := by
  have firstShows := first.shows_outline fun leaf member => (firstReadable leaf member).clear
  have secondShows := second.shows_outline fun leaf member => (secondReadable leaf member).clear
  rw [same] at firstShows
  exact eq_of_shows (fun outline => outline.read.expression) firstShows secondShows
    (first.read_outline firstReadable) (second.read_outline secondReadable)

/-- Readable statements that render to the same text are the same but for ids and lines.
-/
theorem Stmt.bare_eq_of_render
    {first second : Stmt}
    (firstReadable : ∀ leaf ∈ first.leaves, leaf.IsReadable)
    (secondReadable : ∀ leaf ∈ second.leaves, leaf.IsReadable)
    (same : first.render = second.render) :
    first.bare = second.bare := by
  have firstShows := first.shows_outline fun leaf member => (firstReadable leaf member).clear
  have secondShows := second.shows_outline fun leaf member => (secondReadable leaf member).clear
  rw [same] at firstShows
  exact eq_of_shows (fun outline => outline.read.statement) firstShows secondShows
    (first.read_outline firstReadable) (second.read_outline secondReadable)

/-- Two statements, or two expressions, that are parsed without errors, whether as a whole or
as parts of others, have no strings and only finite numbers in them, and are printed alike,
differ in nothing but the numbers of references and the lines of tokens. -/
theorem printed_trees_are_unambiguous :
    (∀ first second : Stmt, (Part.statement first).IsParsed -> (Part.statement second).IsParsed ->
        first.IsLegible -> second.IsLegible -> first.render = second.render ->
          first.bare = second.bare) ∧
      ∀ first second : Expr, (Part.expression first).IsParsed ->
        (Part.expression second).IsParsed -> first.IsLegible -> second.IsLegible ->
          first.render = second.render -> first.bare = second.bare := by
  constructor
  · intro first second isParsed otherIsParsed legible otherLegible same
    exact Stmt.bare_eq_of_render
      (fun leaf member => ⟨isParsed.fits leaf member, legible leaf member⟩)
      (fun leaf member => ⟨otherIsParsed.fits leaf member, otherLegible leaf member⟩) same
  · intro first second isParsed otherIsParsed legible otherLegible same
    exact Expr.bare_eq_of_render
      (fun leaf member => ⟨isParsed.fits leaf member, legible leaf member⟩)
      (fun leaf member => ⟨otherIsParsed.fits leaf member, otherLegible leaf member⟩) same

/-- A text on one line. -/
def denseText : String :=
  "class A<B\x7binit(x)\x7bthis.y=-x-1.50;\x7d\x7d"

/-- The same text on several lines, with a number that is written in another way. -/
def spaciousText : String :=
  "class A < B \x7b\n init(x)\n \x7b\n this . y = - x - 1.5;\n \x7d\n\x7d"

/-- The same tokens with other spacing and other ids, as a program and as an expression.
-/
theorem printed_trees_are_unambiguous_respaced :
    (∃ first ∈ (parseProgram denseText 0).result,
        ∃ second ∈ (parseProgram spaciousText 9).result, first.bare = second.bare) ∧
      ∃ first second : Expr, (parseExpression "a.b=!c").result = some first ∧
        (parseExpression "a . b =\n! c").result = some second ∧ first.bare = second.bare := by
  have statements : ((parseProgram denseText 0).result.any fun first =>
      (parseProgram spaciousText 9).result.any fun second =>
        decide (first.IsLegible ∧ second.IsLegible ∧ first.render = second.render)) = true := by
    decide +kernel
  have expressions : ((parseExpression "a.b=!c").result.any fun first =>
      (parseExpression "a . b =\n! c").result.any fun second =>
        decide (first.IsLegible ∧ second.IsLegible ∧ first.render = second.render)) = true := by
    decide +kernel
  constructor
  · obtain ⟨first, member, statements⟩ := List.any_eq_true.mp statements
    obtain ⟨second, otherMember, statements⟩ := List.any_eq_true.mp statements
    obtain ⟨legible, otherLegible, same⟩ := of_decide_eq_true statements
    exact ⟨first, member, second, otherMember, printed_trees_are_unambiguous.1 first second
      (Part.isParsed_of_parseProgram (by decide +kernel) member)
      (Part.isParsed_of_parseProgram (by decide +kernel) otherMember) legible otherLegible same⟩
  · obtain ⟨first, parsed, expressions⟩ := (Option.any_eq_true _ _).mp expressions
    obtain ⟨second, otherParsed, expressions⟩ := (Option.any_eq_true _ _).mp expressions
    obtain ⟨legible, otherLegible, same⟩ := of_decide_eq_true expressions
    exact ⟨first, second, parsed, otherParsed, printed_trees_are_unambiguous.2 first second
      (Part.isParsed_of_parseExpression (by decide +kernel) parsed)
      (Part.isParsed_of_parseExpression (by decide +kernel) otherParsed) legible otherLegible same⟩

end TreeWalk
