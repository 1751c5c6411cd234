import TreeWalk.Parse.Statement

/-!
# Other lines

The line of a token is of no use but to say where something is.  Here the lines
of all tokens of a tree, of an error or of a cursor are changed by a function.
-/

namespace TreeWalk

/-- Change the line of a token. -/
def Token.reline (line : Nat -> Nat) (token : Token) : Token :=
  ⟨token.kind, token.lexeme, line token.line⟩

/-- Change the line of a reference. -/
def Reference.reline (line : Nat -> Nat) (reference : Reference) : Reference :=
  ⟨reference.id, reference.name.reline line⟩

@[simp] theorem Token.kind_reline (line : Nat -> Nat) (token : Token) :
    (token.reline line).kind = token.kind :=
  rfl

@[simp] theorem Token.lexeme_reline (line : Nat -> Nat) (token : Token) :
    (token.reline line).lexeme = token.lexeme :=
  rfl

@[simp] theorem Token.line_reline (line : Nat -> Nat) (token : Token) :
    (token.reline line).line = line token.line :=
  rfl

theorem Token.reline_reline (line later : Nat -> Nat) (token : Token) :
    (token.reline line).reline later = token.reline (later ∘ line) :=
  rfl

mutual

/-- Change the lines of an expression. -/
def Expr.reline (line : Nat -> Nat) : Expr -> Expr
  | .literal value => .literal value
  | .grouping inner => .grouping (inner.reline line)
  | .unary operator right => .unary (operator.reline line) (right.reline line)
  | .binary left operator right =>
    .binary (left.reline line) (operator.reline line) (right.reline line)
  | .logical left operator right =>
    .logical (left.reline line) (operator.reline line) (right.reline line)
  | .read target => .read (target.reline line)
  | .assign target value => .assign (target.reline line) (value.reline line)
  | .call callee paren arguments =>
    .call (callee.reline line) (paren.reline line) (Expr.listReline line arguments)
  | .property object name => .property (object.reline line) (name.reline line)
  | .setProperty object name value =>
    .setProperty (object.reline line) (name.reline line) (value.reline line)
  | .self keyword => .self (keyword.reline line)
  | .inherited keyword method => .inherited (keyword.reline line) (method.reline line)

/-- Change the lines of expressions. -/
def Expr.listReline (line : Nat -> Nat) : List Expr -> List Expr
  | [] => []
  | first :: rest => first.reline line :: Expr.listReline line rest

end

mutual

/-- Change the lines of a statement. -/
def Stmt.reline (line : Nat -> Nat) : Stmt -> Stmt
  | .expression value => .expression (value.reline line)
  | .print value => .print (value.reline line)
  | .declare name initializer =>
    .declare (name.reline line) (initializer.map (·.reline line))
  | .block body => .block (Stmt.listReline line body)
  | .conditional condition thenBranch elseBranch =>
    .conditional (condition.reline line) (thenBranch.reline line)
      (Stmt.optionReline line elseBranch)
  | .loop condition body => .loop (condition.reline line) (body.reline line)
  | .function declaration => .function (declaration.reline line)
  | .returns keyword value => .returns (keyword.reline line) (value.map (·.reline line))
  | .classDecl name superclass methods =>
    .classDecl (name.reline line) (superclass.map (·.reline line))
      (FunctionDecl.listReline line methods)

/-- Change the lines of statements. -/
def Stmt.listReline (line : Nat -> Nat) : List Stmt -> List Stmt
  | [] => []
  | first :: rest => first.reline line :: Stmt.listReline line rest

/-- Change the lines of a statement that may be missing. -/
def Stmt.optionReline (line : Nat -> Nat) : Option Stmt -> Option Stmt
  | none => none
  | some branch => some (branch.reline line)

/-- Change the lines of a function. -/
def FunctionDecl.reline (line : Nat -> Nat) : FunctionDecl -> FunctionDecl
  | ⟨name, parameters, body⟩ =>
    ⟨name.reline line, parameters.map (·.reline line), Stmt.listReline line body⟩

/-- Change the lines of functions. -/
def FunctionDecl.listReline (line : Nat -> Nat) : List FunctionDecl -> List FunctionDecl
  | [] => []
  | first :: rest => first.reline line :: FunctionDecl.listReline line rest

end

section Lists

variable (line : Nat -> Nat)

/-- Expressions are relined one by one. -/
theorem Expr.listReline_eq_map (values : List Expr) :
    Expr.listReline line values = values.map (·.reline line) := by
  induction values with
  | nil => rfl
  | cons first rest inductionHypothesis => simp [Expr.listReline, inductionHypothesis]

/-- Statements are relined one by one. -/
theorem Stmt.listReline_eq_map (steps : List Stmt) :
    Stmt.listReline line steps = steps.map (·.reline line) := by
  induction steps with
  | nil => rw [Stmt.listReline, List.map_nil]
  | cons first rest inductionHypothesis => simp [Stmt.listReline, inductionHypothesis]

theorem Stmt.optionReline_eq_map (branch : Option Stmt) :
    Stmt.optionReline line branch = branch.map (·.reline line) := by
  cases branch <;> rw [Stmt.optionReline] <;> rfl

/-- Functions are relined one by one. -/
theorem FunctionDecl.listReline_eq_map (functions : List FunctionDecl) :
    FunctionDecl.listReline line functions = functions.map (·.reline line) := by
  induction functions with
  | nil => rw [FunctionDecl.listReline, List.map_nil]
  | cons first rest inductionHypothesis => simp [FunctionDecl.listReline, inductionHypothesis]

end Lists

/-- The statements that a `for` loop stands for are those of its parts. -/
theorem Parse.reline_forLoop
    (line : Nat -> Nat)
    (initializer : Option Stmt)
    (condition increment : Option Expr)
    (body : Stmt) :
    (forLoop initializer condition increment body).reline line =
      forLoop (initializer.map (Stmt.reline line)) (condition.map (Expr.reline line))
        (increment.map (Expr.reline line)) (body.reline line) := by
  cases initializer <;> cases condition <;> cases increment <;>
    simp [forLoop, Stmt.reline, Stmt.listReline, Expr.reline]

/-- Change the line of an error. -/
def SyntaxError.reline (line : Nat -> Nat) (error : SyntaxError) : SyntaxError :=
  ⟨error.token.reline line, error.fault⟩

/-- Change the lines of what is still to be read and of the errors so far. -/
def Cursor.reline (line : Nat -> Nat) (cursor : Cursor) : Cursor where
  rest := cursor.rest.map (·.reline line)
  endToken := cursor.endToken.reline line
  nextId := cursor.nextId
  errors := cursor.errors.map (·.reline line)

/-- A relined cursor's next token is the cursor's next token, relined. -/
theorem Cursor.next_reline (line : Nat -> Nat) (cursor : Cursor) :
    (cursor.reline line).next = cursor.next.reline line := by
  rw [Cursor.next, Cursor.next, Cursor.reline]
  cases cursor.rest <;> rfl

end TreeWalk
