import TreeWalk.Proofs.Parse.Relining
import TreeWalk.Proofs.Scan.Lines

/-!
# The tokens of a program

A tree keeps those tokens of its source text that run-time errors may report.
They are listed here in the order of the text.  The tokens of whatever is parsed
from a source text are on line one or a later one, because parsing commutes with
changing lines, and moving everything up to line one changes nothing.
-/

namespace TreeWalk

mutual

/-- The tokens of an expression. -/
def Expr.tokens : Expr -> List Token
  | .literal _ => []
  | .grouping inner => inner.tokens
  | .unary operator right => operator :: right.tokens
  | .binary left operator right => left.tokens ++ operator :: right.tokens
  | .logical left operator right => left.tokens ++ operator :: right.tokens
  | .read target => [target.name]
  | .assign target value => target.name :: value.tokens
  | .call callee paren arguments => callee.tokens ++ Expr.listTokens arguments ++ [paren]
  | .property object name => object.tokens ++ [name]
  | .setProperty object name value => object.tokens ++ name :: value.tokens
  | .self keyword => [keyword.name]
  | .inherited keyword method => [keyword.name, method]

/-- The tokens of expressions. -/
def Expr.listTokens : List Expr -> List Token
  | [] => []
  | first :: rest => first.tokens ++ Expr.listTokens rest

end

/-- The tokens of an expression that may be missing. -/
def Expr.optionTokens : Option Expr -> List Token
  | none => []
  | some value => value.tokens

mutual

/-- The tokens of a statement. -/
def Stmt.tokens : Stmt -> List Token
  | .expression value => value.tokens
  | .print value => value.tokens
  | .declare name initializer => name :: Expr.optionTokens initializer
  | .block body => Stmt.listTokens body
  | .conditional condition thenBranch elseBranch =>
    condition.tokens ++ thenBranch.tokens ++ Stmt.optionTokens elseBranch
  | .loop condition body => condition.tokens ++ body.tokens
  | .function declaration => declaration.tokens
  | .returns keyword value => keyword :: Expr.optionTokens value
  | .classDecl name superclass methods =>
    name :: (superclass.toList.map (·.name) ++ FunctionDecl.listTokens methods)

/-- The tokens of statements. -/
def Stmt.listTokens : List Stmt -> List Token
  | [] => []
  | first :: rest => first.tokens ++ Stmt.listTokens rest

/-- The tokens of a statement that may be missing. -/
def Stmt.optionTokens : Option Stmt -> List Token
  | none => []
  | some branch => branch.tokens

/-- The tokens of a function. -/
def FunctionDecl.tokens : FunctionDecl -> List Token
  | ⟨name, parameters, body⟩ => name :: (parameters ++ Stmt.listTokens body)

/-- The tokens of functions. -/
def FunctionDecl.listTokens : List FunctionDecl -> List Token
  | [] => []
  | first :: rest => first.tokens ++ FunctionDecl.listTokens rest

end

/-- A token of some statements is a token of one of them. -/
theorem Stmt.mem_listTokens {steps : List Stmt} {token : Token} :
    token ∈ Stmt.listTokens steps ↔ ∃ step ∈ steps, token ∈ step.tokens := by
  induction steps with
  | nil => simp [Stmt.listTokens]
  | cons first rest inductionHypothesis => simp [Stmt.listTokens, inductionHypothesis]

/-- A token of some functions is a token of one of them. -/
theorem FunctionDecl.mem_listTokens
    {functions : List FunctionDecl}
    {token : Token} :
    token ∈ FunctionDecl.listTokens functions ↔
      ∃ function ∈ functions, token ∈ function.tokens := by
  induction functions with
  | nil => simp [FunctionDecl.listTokens]
  | cons first rest inductionHypothesis => simp [FunctionDecl.listTokens, inductionHypothesis]

/-- The tokens of a function include those of its body. -/
theorem FunctionDecl.mem_tokens_of_body
    {declaration : FunctionDecl}
    {token : Token}
    (member : token ∈ Stmt.listTokens declaration.body) :
    token ∈ declaration.tokens := by
  cases declaration with
  | mk name parameters body =>
    rw [FunctionDecl.tokens]
    exact List.mem_cons_of_mem _ (List.mem_append_right _ member)

section Relining

variable (line : Nat -> Nat)

mutual

/-- Moving the lines of an expression moves those of its tokens. -/
theorem Expr.tokens_reline (value : Expr) :
    (value.reline line).tokens = value.tokens.map (·.reline line) := by
  cases value with
  | literal _ => rfl
  | grouping inner => exact inner.tokens_reline
  | unary operator right => simp [Expr.reline, Expr.tokens, right.tokens_reline]
  | binary left operator right =>
    simp [Expr.reline, Expr.tokens, left.tokens_reline, right.tokens_reline]
  | logical left operator right =>
    simp [Expr.reline, Expr.tokens, left.tokens_reline, right.tokens_reline]
  | read target => rfl
  | assign target value => simp [Expr.reline, Expr.tokens, Reference.reline, value.tokens_reline]
  | call callee paren arguments =>
    simp [Expr.reline, Expr.tokens, callee.tokens_reline, Expr.listTokens_reline arguments]
  | property object name => simp [Expr.reline, Expr.tokens, object.tokens_reline]
  | setProperty object name value =>
    simp [Expr.reline, Expr.tokens, object.tokens_reline, value.tokens_reline]
  | self keyword => rfl
  | inherited keyword method => rfl

theorem Expr.listTokens_reline (values : List Expr) :
    Expr.listTokens (Expr.listReline line values) =
      (Expr.listTokens values).map (·.reline line) := by
  cases values with
  | nil => rfl
  | cons first rest =>
    simp [Expr.listReline, Expr.listTokens, first.tokens_reline, Expr.listTokens_reline rest]

end

theorem Expr.optionTokens_reline (value : Option Expr) :
    Expr.optionTokens (value.map (·.reline line)) =
      (Expr.optionTokens value).map (·.reline line) := by
  cases value with
  | none => rfl
  | some value => exact value.tokens_reline line

mutual

/-- Moving the lines of a statement moves those of its tokens. -/
theorem Stmt.tokens_reline (step : Stmt) :
    (step.reline line).tokens = step.tokens.map (·.reline line) := by
  cases step with
  | expression value => simp [Stmt.reline, Stmt.tokens, value.tokens_reline]
  | print value => simp [Stmt.reline, Stmt.tokens, value.tokens_reline]
  | declare name initializer => simp [Stmt.reline, Stmt.tokens, Expr.optionTokens_reline]
  | block body => simp [Stmt.reline, Stmt.tokens, Stmt.listTokens_reline body]
  | conditional condition thenBranch elseBranch =>
    simp [Stmt.reline, Stmt.tokens, condition.tokens_reline, thenBranch.tokens_reline,
      Stmt.optionTokens_reline elseBranch]
  | loop condition body =>
    simp [Stmt.reline, Stmt.tokens, condition.tokens_reline, body.tokens_reline]
  | function declaration => simp [Stmt.reline, Stmt.tokens, declaration.tokens_reline]
  | returns keyword value => simp [Stmt.reline, Stmt.tokens, Expr.optionTokens_reline]
  | classDecl name superclass methods =>
    cases superclass <;>
      simp [Stmt.reline, Stmt.tokens, Reference.reline, FunctionDecl.listTokens_reline methods]

theorem Stmt.listTokens_reline (steps : List Stmt) :
    Stmt.listTokens (Stmt.listReline line steps) =
      (Stmt.listTokens steps).map (·.reline line) := by
  cases steps with
  | nil => simp [Stmt.listReline, Stmt.listTokens]
  | cons first rest =>
    simp [Stmt.listReline, Stmt.listTokens, first.tokens_reline, Stmt.listTokens_reline rest]

theorem Stmt.optionTokens_reline (branch : Option Stmt) :
    Stmt.optionTokens (Stmt.optionReline line branch) =
      (Stmt.optionTokens branch).map (·.reline line) := by
  cases branch with
  | none => simp [Stmt.optionReline, Stmt.optionTokens]
  | some branch => simp [Stmt.optionReline, Stmt.optionTokens, branch.tokens_reline]

/-- Moving the lines of a function moves those of its tokens. -/
theorem FunctionDecl.tokens_reline (declaration : FunctionDecl) :
    (declaration.reline line).tokens = declaration.tokens.map (·.reline line) := by
  cases declaration with
  | mk name parameters body =>
    simp [FunctionDecl.reline, FunctionDecl.tokens, Stmt.listTokens_reline body]

theorem FunctionDecl.listTokens_reline (functions : List FunctionDecl) :
    FunctionDecl.listTokens (FunctionDecl.listReline line functions) =
      (FunctionDecl.listTokens functions).map (·.reline line) := by
  cases functions with
  | nil => simp [FunctionDecl.listReline, FunctionDecl.listTokens]
  | cons first rest =>
    simp [FunctionDecl.listReline, FunctionDecl.listTokens, first.tokens_reline,
      FunctionDecl.listTokens_reline rest]

end

end Relining

/-- Lines are counted from one. -/
theorem Scan.one_le_line (source : String) :
    ∀ token ∈ (Scan.ofSource source).tokens, 1 ≤ token.line := by
  intro token member
  obtain ⟨item, isItem, isToken⟩ := List.mem_filterMap.mp member
  rw [Scan.items_ofSource] at isItem
  have bounds := (Scan.itemsFrom_ordered 1 _).2 item isItem
  cases item with
  | token found =>
    cases isToken
    exact bounds.1
  | fault line fault => cases isToken

/-- So a token of a scan stays where it is when lines below one are raised. -/
theorem Token.reline_max_one {token : Token} (positive : 1 ≤ token.line) :
    token.reline (max 1) = token := by
  simp [Token.reline, Nat.max_eq_right positive]

/-- The tokens of a parsed source text are on line one or a later one, whether or not
the text has errors. -/
theorem one_le_line_of_parseProgram (source : String) (firstId : Nat) :
    ∀ token ∈ Stmt.listTokens (parseProgram source firstId).result, 1 ≤ token.line := by
  have sameTokens : (Scan.ofSource source).tokens.map (·.reline (max 1)) =
      (Scan.ofSource source).tokens :=
    List.map_congr_left (fun token member =>
      Token.reline_max_one (Scan.one_le_line source token member)) |>.trans (List.map_id _)
  have sameEnd : (Scan.ofSource source).endToken.reline (max 1) =
      (Scan.ofSource source).endToken := by
    apply Token.reline_max_one
    rw [Scan.line_endToken]
    omega
  have relined := parseTokens_reline (max 1) (Scan.ofSource source).tokens
    (Scan.ofSource source).endToken firstId
  rw [sameTokens, sameEnd] at relined
  have fixed : (parseProgram source firstId).result =
      Stmt.listReline (max 1) (parseProgram source firstId).result :=
    congrArg Parsed.result relined
  intro token member
  rw [fixed, Stmt.listTokens_reline] at member
  obtain ⟨original, -, rfl⟩ := List.mem_map.mp member
  simp only [Token.line_reline]
  omega

end TreeWalk
