import TreeWalk.Proofs.Parse.LocalRules
import TreeWalk.Proofs.Relining

/-!
# Reading tokens with other lines

No reader looks at the lines of its tokens.  So if these are changed, a reader
finds the same as before but for the lines: its result, the tokens that it leaves,
its reference numbers and its errors.
-/

namespace TreeWalk
namespace Parse

/-- Change the lines of what a reader has come to. -/
def relined
    {α β : Type}
    (line : Nat -> Nat)
    (change : α -> β) :
    EStateM.Result SyntaxError Cursor α -> EStateM.Result SyntaxError Cursor β
  | .ok result cursor => .ok (change result) (cursor.reline line)
  | .error error cursor => .error (error.reline line) (cursor.reline line)

/-- On tokens with other lines, another reader finds what a reader does, but for
the lines. -/
def Relines
    {α β : Type}
    (line : Nat -> Nat)
    (change : α -> β)
    (reader : Parse α)
    (other : Parse β) : Prop :=
  ∀ cursor, other (cursor.reline line) = relined line change (reader cursor)

section Rules

variable {α β γ δ : Type} {line : Nat -> Nat} {change : α -> β} {changeLater : γ -> δ}

/-- A result is changed without reading anything. -/
theorem relines_pure (result : α) : Relines line change (pure result) (pure (change result)) :=
  fun _ => rfl

/-- Two readers, one after the other, do not look at lines if neither does. -/
theorem Relines.bind
    {reader : Parse α}
    {other : Parse β}
    {rest : α -> Parse γ}
    {otherRest : β -> Parse δ}
    (first : Relines line change reader other)
    (second : ∀ result, Relines line changeLater (rest result) (otherRest (change result))) :
    Relines line changeLater (reader >>= rest) (other >>= otherRest) := by
  intro cursor
  have same := first cursor
  cases ended : reader cursor with
  | error error after =>
    rw [ended] at same
    rw [bind_of_error ended, bind_of_error same]
    rfl
  | ok result after =>
    rw [ended] at same
    rw [bind_of_ok ended, bind_of_ok same]
    exact second result after

/-- A failure is at the token with the other line. -/
theorem relines_fail (fault : SyntaxFault) :
    Relines line change (fail fault) (fail fault) := by
  intro cursor
  rw [fail, fail, Cursor.next_reline]
  rfl

/-- An error is noted at the token with the other line. -/
theorem relines_report (token : Token) (fault : SyntaxFault) :
    Relines line id (report token fault) (report (token.reline line) fault) := by
  intro cursor
  rw [report, report]
  simp [relined, Cursor.reline, SyntaxError.reline]

theorem relines_reportNext (fault : SyntaxFault) :
    Relines line id (reportNext fault) (reportNext fault) := by
  intro cursor
  rw [reportNext, reportNext, Cursor.next_reline]
  exact relines_report cursor.next fault cursor

/-- A reference has the same number. -/
theorem relines_freshReference (name : Token) :
    Relines line (Reference.reline line) (freshReference name)
      (freshReference (name.reline line)) :=
  fun _ => rfl

theorem relines_atEnd : Relines line id atEnd atEnd := by
  intro cursor
  simp [atEnd, relined, Cursor.reline]

theorem relines_check (kind : Token.Kind) : Relines line id (check kind) (check kind) := by
  rintro ⟨tokens, endToken, nextId, errors⟩
  cases tokens <;> rfl

/-- Whether a token is admitted does not depend on its line. -/
theorem relines_acceptIf (admitted : Token.Kind -> Bool) :
    Relines line (Option.map (Token.reline line)) (acceptIf admitted) (acceptIf admitted) := by
  rintro ⟨tokens, endToken, nextId, errors⟩
  cases tokens with
  | nil => rfl
  | cons token rest =>
    simp only [Cursor.reline, acceptIf, List.map_cons, Token.kind_reline]
    split <;> rfl

/-- Go on in one of two ways, depending on whether the next token is admitted. -/
theorem relines_ifAccepted
    {admitted : Token.Kind -> Bool}
    {rest otherRest : Option Token -> Parse α}
    {change : α -> α}
    (without : Relines line change (rest none) (otherRest none))
    (behind : ∀ token, Relines line change (rest (some token))
      (otherRest (some (token.reline line)))) :
    Relines line change (acceptIf admitted >>= rest) (acceptIf admitted >>= otherRest) := by
  refine (relines_acceptIf admitted).bind fun found => ?_
  cases found with
  | none => exact without
  | some token => exact behind token

/-- Nor does it whether a token is the expected one. -/
theorem relines_expect (kind : Token.Kind) (what : String) :
    Relines line (Token.reline line) (expect kind what) (expect kind what) :=
  relines_ifAccepted (relines_fail _) fun token => relines_pure token

/-- As many steps are taken on the other lines. -/
theorem relines_extendAtMost
    {step : α -> Parse (Option α)}
    {otherStep : β -> Parse (Option β)}
    (steps : ∀ start, Relines line (Option.map change) (step start) (otherStep (change start)))
    (count : Nat)
    (start : α) :
    Relines line change (extendAtMost step count start)
      (extendAtMost otherStep count (change start)) := by
  induction count generalizing start with
  | zero => exact relines_pure start
  | succ count inductionHypothesis =>
    refine (steps start).bind fun found => ?_
    cases found with
    | none => exact relines_pure start
    | some longer => exact inductionHypothesis longer

theorem relines_extend
    {step : α -> Parse (Option α)}
    {otherStep : β -> Parse (Option β)}
    (steps : ∀ start, Relines line (Option.map change) (step start) (otherStep (change start)))
    (start : α) :
    Relines line change (extend step start) (extend otherStep (change start)) := by
  refine (steps start).bind fun found => ?_
  cases found with
  | none => exact relines_pure start
  | some longer =>
    have looks : Relines line (Cursor.reline line) (get : Parse Cursor) (get : Parse Cursor) :=
      fun _ => rfl
    refine looks.bind fun cursor => ?_
    have sameLength : (cursor.reline line).rest.length = cursor.rest.length := List.length_map _
    rw [sameLength]
    exact relines_extendAtMost steps _ longer

end Rules

section Lists

variable {α : Type} {line : Nat -> Nat} {change : α -> α} {item : Parse α}

/-- One more item is found on the other lines. -/
theorem relines_nextItem
    (items : Relines line change item item)
    (what : String)
    (found : Array α) :
    Relines line (Option.map (Array.map change)) (nextItem what item found)
      (nextItem what item (found.map change)) := by
  have read : Relines line (Option.map (Array.map change))
      (do return some (found.push (← item)))
      (do return some ((found.map change).push (← item))) := by
    refine items.bind fun next => ?_
    rw [← Array.map_push]
    exact relines_pure _
  refine relines_ifAccepted (relines_pure none) fun comma => ?_
  dsimp only
  rw [Array.size_map]
  split
  · exact (relines_reportNext _).bind fun _ => read
  · exact read

theorem relines_commaSeparated
    (items : Relines line change item item)
    (what : String) :
    Relines line (List.map change) (commaSeparated what item) (commaSeparated what item) := by
  refine items.bind fun first => ?_
  have all := relines_extend (relines_nextItem items what) #[first]
  rw [List.map_toArray] at all
  refine all.bind fun found => ?_
  rw [Array.toList_map]
  exact relines_pure found.toList

/-- A list in parentheses is found on the other lines. -/
theorem relines_parenthesized
    (items : Relines line change item item)
    (what : String) :
    Relines line (Prod.map (List.map change) (Token.reline line)) (parenthesized what item)
      (parenthesized what item) := by
  have closes : ∀ found : List α, Relines line (Prod.map (List.map change) (Token.reline line))
      (do return (found, ← expect (.symbol .rightParen) ("')' after " ++ what)))
      (do return (found.map change, ← expect (.symbol .rightParen) ("')' after " ++ what))) :=
    fun found => (relines_expect _ _).bind fun paren => relines_pure (found, paren)
  refine (relines_check _).bind fun isClosed => ?_
  cases isClosed with
  | true => exact closes []
  | false => exact (relines_commaSeparated items what).bind closes

end Lists

/-! ## Expressions -/

section Expressions

variable {line : Nat -> Nat} {expression operand : Parse Expr}

/-- A chain of operators is found on the other lines. -/
theorem relines_leftAssociative
    {combine : Expr -> Token -> Expr -> Expr}
    (combines : ∀ left operator right, (combine left operator right).reline line =
      combine (left.reline line) (operator.reline line) (right.reline line))
    (isOperator : Token.Kind -> Bool)
    (operands : Relines line (Expr.reline line) operand operand) :
    Relines line (Expr.reline line) (leftAssociative isOperator combine operand)
      (leftAssociative isOperator combine operand) := by
  have steps : ∀ left : Expr, Relines line (Option.map (Expr.reline line))
      (nextOperand isOperator combine operand left)
      (nextOperand isOperator combine operand (left.reline line)) := by
    intro left
    refine relines_ifAccepted (relines_pure none) fun operator => operands.bind fun right => ?_
    rw [← combines]
    exact relines_pure _
  exact operands.bind fun first => relines_extend steps first

/-- A primary expression is found on the other lines. -/
theorem relines_primaryRule
    (inside : Relines line (Expr.reline line) expression expression) :
    Relines line (Expr.reline line) (primaryRule expression) (primaryRule expression) := by
  refine relines_ifAccepted (relines_fail _) fun token => ?_
  simp only [Token.kind_reline]
  split
  · exact relines_pure _
  · exact relines_pure _
  · exact relines_pure _
  · exact relines_pure _
  · exact relines_pure _
  · exact (relines_freshReference token).bind fun reference => relines_pure _
  · exact (relines_freshReference token).bind fun reference => relines_pure _
  · refine (relines_expect _ _).bind fun dot => (relines_expect _ _).bind fun method => ?_
    exact (relines_freshReference token).bind fun reference =>
      relines_pure (Expr.inherited reference method)
  · refine inside.bind fun inner => (relines_expect _ _).bind fun closing => ?_
    exact relines_pure _

/-- So is a chain of calls and properties. -/
theorem relines_callRule
    (inside : Relines line (Expr.reline line) expression expression) :
    Relines line (Expr.reline line) (callRule expression) (callRule expression) := by
  have steps : ∀ callee : Expr, Relines line (Option.map (Expr.reline line))
      (nextCall expression callee) (nextCall expression (callee.reline line)) := by
    intro callee
    refine relines_ifAccepted (relines_ifAccepted (relines_pure none) fun dot => ?_) fun paren => ?_
    · exact (relines_expect _ _).bind fun name => relines_pure (some (callee.property name))
    · refine (relines_parenthesized inside _).bind ?_
      rintro ⟨arguments, paren⟩
      have same : (Expr.call callee paren arguments).reline line =
          .call (callee.reline line) (paren.reline line) (arguments.map (·.reline line)) := by
        rw [Expr.reline, Expr.listReline_eq_map]
      dsimp only [Prod.map]
      rw [← same]
      exact relines_pure (some (callee.call paren arguments))
  exact (relines_primaryRule inside).bind fun first => relines_extend steps first

/-- So is a unary expression. -/
theorem relines_unaryRule
    (operands : Relines line (Expr.reline line) operand operand)
    (inside : Relines line (Expr.reline line) expression expression) :
    Relines line (Expr.reline line) (unaryRule operand expression)
      (unaryRule operand expression) := by
  refine relines_ifAccepted (relines_callRule inside) fun operator => ?_
  exact operands.bind fun right => relines_pure (Expr.unary operator right)

/-- So are the chains of operators of every rank. -/
theorem relines_operatorRule
    (operands : Relines line (Expr.reline line) operand operand) :
    Relines line (Expr.reline line) (operatorRule operand) (operatorRule operand) := by
  have logical : ∀ isOperator {inner}, Relines line (Expr.reline line) inner inner ->
      Relines line (Expr.reline line) (leftAssociative isOperator .logical inner)
        (leftAssociative isOperator .logical inner) :=
    fun isOperator _ => relines_leftAssociative (by intros; rfl) isOperator
  have binary : ∀ isOperator {inner}, Relines line (Expr.reline line) inner inner ->
      Relines line (Expr.reline line) (leftAssociative isOperator .binary inner)
        (leftAssociative isOperator .binary inner) :=
    fun isOperator _ => relines_leftAssociative (by intros; rfl) isOperator
  exact logical _ (logical _ (binary _ (binary _ (binary _ (binary _ operands)))))

/-- An assignment is made of the target and the value on the other lines. -/
theorem relines_assignmentTo (target : Expr) (equals : Token) (value : Expr) :
    Relines line (Expr.reline line) (assignmentTo target equals value)
      (assignmentTo (target.reline line) (equals.reline line) (value.reline line)) := by
  cases target
  case read reference =>
    exact (relines_freshReference reference.name).bind fun fresh =>
      relines_pure (Expr.assign fresh value)
  case property object name => exact relines_pure (Expr.setProperty object name value)
  all_goals exact (relines_report equals _).bind fun _ => relines_pure _

/-- An assignment is found on the other lines. -/
theorem relines_assignmentRule
    (operands : Relines line (Expr.reline line) operand operand)
    (inside : Relines line (Expr.reline line) expression expression) :
    Relines line (Expr.reline line) (assignmentRule operand expression)
      (assignmentRule operand expression) := by
  refine (relines_operatorRule operands).bind fun left => ?_
  refine relines_ifAccepted (relines_pure left) fun equals => ?_
  exact inside.bind fun value => relines_assignmentTo left equals value

end Expressions

/-- Expressions and operands are found on the other lines, however deeply they are nested.
-/
theorem relines_expression_and_unaryOperand (line : Nat -> Nat) (room : Nat) :
    Relines line (Expr.reline line) (expression room) (expression room) ∧
      Relines line (Expr.reline line) (unaryOperand room) (unaryOperand room) := by
  induction room with
  | zero => exact ⟨relines_fail _, relines_fail _⟩
  | succ room inductionHypothesis =>
    obtain ⟨inside, operands⟩ := inductionHypothesis
    have unary := relines_unaryRule operands inside
    exact ⟨relines_assignmentRule unary inside, unary⟩

section Statements

variable
  {line : Nat -> Nat}
  {expression : Parse Expr}
  {statement : Parse Stmt}
  {block : Parse (List Stmt)}

theorem relines_optionalUnless
    (kind : Token.Kind)
    (inside : Relines line (Expr.reline line) expression expression) :
    Relines line (Option.map (Expr.reline line)) (optionalUnless kind expression)
      (optionalUnless kind expression) := by
  refine (relines_check kind).bind fun isNext => ?_
  cases isNext with
  | true => exact relines_pure none
  | false => exact inside.bind fun value => relines_pure (some value)

theorem relines_declareRule
    (inside : Relines line (Expr.reline line) expression expression) :
    Relines line (Stmt.reline line) (declareRule expression) (declareRule expression) := by
  have ends : ∀ (name : Token) (initializer : Option Expr), Relines line (Stmt.reline line)
      (do
        let _ ← expect (.symbol .semicolon) "';' after variable declaration"
        return .declare name initializer)
      (do
        let _ ← expect (.symbol .semicolon) "';' after variable declaration"
        return .declare (name.reline line) (initializer.map (Expr.reline line))) := by
    intro name initializer
    refine (relines_expect _ _).bind fun _ => ?_
    have same : (Stmt.declare name initializer).reline line =
        .declare (name.reline line) (initializer.map (Expr.reline line)) := by
      rw [Stmt.reline]
    rw [← same]
    exact relines_pure _
  refine (relines_expect _ _).bind fun name => ?_
  refine relines_ifAccepted (ends name none) fun equals => ?_
  exact inside.bind fun value => ends name (some value)

theorem relines_expressionStatementRule
    (inside : Relines line (Expr.reline line) expression expression) :
    Relines line (Stmt.reline line) (expressionStatementRule expression)
      (expressionStatementRule expression) := by
  refine inside.bind fun value => (relines_expect _ _).bind fun _ => ?_
  rw [← Stmt.reline]
  exact relines_pure _

theorem relines_printRule
    (inside : Relines line (Expr.reline line) expression expression) :
    Relines line (Stmt.reline line) (printRule expression) (printRule expression) := by
  refine inside.bind fun value => (relines_expect _ _).bind fun _ => ?_
  rw [← Stmt.reline]
  exact relines_pure _

theorem relines_returnRule
    (keyword : Token)
    (inside : Relines line (Expr.reline line) expression expression) :
    Relines line (Stmt.reline line) (returnRule keyword expression)
      (returnRule (keyword.reline line) expression) := by
  refine (relines_optionalUnless _ inside).bind fun value => (relines_expect _ _).bind fun _ => ?_
  have same : (Stmt.returns keyword value).reline line =
      .returns (keyword.reline line) (value.map (Expr.reline line)) := by
    rw [Stmt.reline]
  rw [← same]
  exact relines_pure _

/-- A conditional is found on the other lines. -/
theorem relines_conditionalRule
    (inside : Relines line (Expr.reline line) expression expression)
    (branches : Relines line (Stmt.reline line) statement statement) :
    Relines line (Stmt.reline line) (conditionalRule expression statement)
      (conditionalRule expression statement) := by
  have ends : ∀ condition thenBranch elseBranch, Relines line (Stmt.reline line)
      (pure (.conditional condition thenBranch elseBranch))
      (pure (.conditional (condition.reline line) (thenBranch.reline line)
        (elseBranch.map (Stmt.reline line)))) := by
    intro condition thenBranch elseBranch
    rw [← Stmt.optionReline_eq_map, ← Stmt.reline]
    exact relines_pure _
  refine (relines_expect _ _).bind fun _ => inside.bind fun condition => ?_
  refine (relines_expect _ _).bind fun _ => branches.bind fun thenBranch => ?_
  refine relines_ifAccepted (ends condition thenBranch none) fun _ => ?_
  exact branches.bind fun elseBranch => ends condition thenBranch (some elseBranch)

theorem relines_whileRule
    (inside : Relines line (Expr.reline line) expression expression)
    (bodies : Relines line (Stmt.reline line) statement statement) :
    Relines line (Stmt.reline line) (whileRule expression statement)
      (whileRule expression statement) := by
  refine (relines_expect _ _).bind fun _ => inside.bind fun condition => ?_
  refine (relines_expect _ _).bind fun _ => bodies.bind fun body => ?_
  rw [← Stmt.reline]
  exact relines_pure _

theorem relines_forInitializerRule
    (inside : Relines line (Expr.reline line) expression expression) :
    Relines line (Option.map (Stmt.reline line)) (forInitializerRule expression)
      (forInitializerRule expression) := by
  refine relines_ifAccepted (relines_ifAccepted ?_ fun _ => ?_) fun _ => relines_pure none
  · exact (relines_expressionStatementRule inside).bind fun first => relines_pure (some first)
  · exact (relines_declareRule inside).bind fun first => relines_pure (some first)

/-- A loop with a header is found on the other lines. -/
theorem relines_forRule
    (inside : Relines line (Expr.reline line) expression expression)
    (bodies : Relines line (Stmt.reline line) statement statement) :
    Relines line (Stmt.reline line) (forRule expression statement)
      (forRule expression statement) := by
  refine (relines_expect _ _).bind fun _ => ?_
  refine (relines_forInitializerRule inside).bind fun initializer => ?_
  refine (relines_optionalUnless _ inside).bind fun condition => ?_
  refine (relines_expect _ _).bind fun _ => ?_
  refine (relines_optionalUnless _ inside).bind fun increment => ?_
  refine (relines_expect _ _).bind fun _ => ?_
  refine bodies.bind fun body => ?_
  rw [← reline_forLoop]
  exact relines_pure _

/-- A function is found on the other lines. -/
theorem relines_functionRule
    (what : String)
    (bodies : Relines line (Stmt.listReline line) block block) :
    Relines line (FunctionDecl.reline line) (functionRule what block)
      (functionRule what block) := by
  refine (relines_expect _ _).bind fun name => (relines_expect _ _).bind fun _ => ?_
  refine (relines_parenthesized (relines_expect _ _) _).bind ?_
  rintro ⟨parameters, closing⟩
  refine (relines_expect _ _).bind fun _ => bodies.bind fun body => ?_
  have same : FunctionDecl.reline line ⟨name, parameters, body⟩ =
      ⟨name.reline line, parameters.map (Token.reline line), Stmt.listReline line body⟩ := by
    rw [FunctionDecl.reline]
  rw [← same]
  exact relines_pure _

/-- Go on in one of two ways, depending on whether there is more before a token of
the given kind. -/
theorem relines_unlessClosed
    {α β : Type}
    {change : α -> β}
    {ends more : Parse α}
    {otherEnds otherMore : Parse β}
    (kind : Token.Kind)
    (relinesEnd : Relines line change ends otherEnds)
    (relinesMore : Relines line change more otherMore) :
    Relines line change (do if (← check kind) || (← atEnd) then ends else more)
      (do if (← check kind) || (← atEnd) then otherEnds else otherMore) := by
  refine (relines_check kind).bind fun closes => relines_atEnd.bind fun ends => ?_
  rw [id, id]
  split
  · exact relinesEnd
  · exact relinesMore

/-- One step of reading the methods of a class. -/
def nextMethod
    (block : Parse (List Stmt))
    (methods : Array FunctionDecl) : Parse (Option (Array FunctionDecl)) := do
  if (← check (.symbol .rightBrace)) || (← atEnd) then
    return none
  else
    return some (methods.push (← functionRule "method" block))

theorem relines_methodsRule
    (bodies : Relines line (Stmt.listReline line) block block) :
    Relines line (FunctionDecl.listReline line) (methodsRule block) (methodsRule block) := by
  have steps : ∀ methods : Array FunctionDecl,
      Relines line (Option.map (Array.map (FunctionDecl.reline line)))
        (nextMethod block methods)
        (nextMethod block (methods.map (FunctionDecl.reline line))) := by
    intro methods
    refine relines_unlessClosed _ (relines_pure none) ?_
    refine (relines_functionRule "method" bodies).bind fun method => ?_
    rw [← Array.map_push]
    exact relines_pure (some (methods.push method))
  have all := relines_extend steps #[]
  rw [Array.map_empty] at all
  refine all.bind fun methods => ?_
  rw [Array.toList_map, ← FunctionDecl.listReline_eq_map]
  exact relines_pure methods.toList

theorem relines_superclassRule :
    Relines line (Option.map (Reference.reline line)) superclassRule superclassRule := by
  refine relines_ifAccepted (relines_pure none) fun _ => (relines_expect _ _).bind fun name => ?_
  exact (relines_freshReference name).bind fun reference => relines_pure (some reference)

/-- A class is found on the other lines. -/
theorem relines_classRule
    (bodies : Relines line (Stmt.listReline line) block block) :
    Relines line (Stmt.reline line) (classRule block) (classRule block) := by
  refine (relines_expect _ _).bind fun name => relines_superclassRule.bind fun superclass => ?_
  refine (relines_expect _ _).bind fun _ => (relines_methodsRule bodies).bind fun methods => ?_
  refine (relines_expect _ _).bind fun _ => ?_
  have same : (Stmt.classDecl name superclass methods).reline line =
      .classDecl (name.reline line) (superclass.map (Reference.reline line))
        (FunctionDecl.listReline line methods) := by
    rw [Stmt.reline]
  rw [← same]
  exact relines_pure _

/-- A statement of any form is found on the other lines. -/
theorem relines_statementRule
    (inside : Relines line (Expr.reline line) expression expression)
    (parts : Relines line (Stmt.reline line) statement statement)
    (bodies : Relines line (Stmt.listReline line) block block) :
    Relines line (Stmt.reline line) (statementRule expression statement block)
      (statementRule expression statement block) := by
  refine relines_ifAccepted (relines_expressionStatementRule inside) fun token => ?_
  simp only [Token.kind_reline]
  split
  · exact relines_forRule inside parts
  · exact relines_conditionalRule inside parts
  · exact relines_printRule inside
  · exact relines_returnRule token inside
  · exact relines_whileRule inside parts
  · refine bodies.bind fun body => ?_
    rw [← Stmt.reline]
    exact relines_pure _

/-- Where a statement cannot be read, the same tokens are skipped. -/
theorem relines_recovering
    {rule : Parse Stmt}
    (steps : Relines line (Stmt.reline line) rule rule) :
    Relines line (Option.map (Stmt.reline line)) (recovering rule) (recovering rule) := by
  have skips : ∀ tokens : List Token,
      synchronize (tokens.map (Token.reline line)) =
        (synchronize tokens).map (Token.reline line) := by
    intro tokens
    induction tokens with
    | nil => rfl
    | cons skipped rest inductionHypothesis =>
      have begins : (rest.map (Token.reline line)).head?.any (·.kind.beginsStatement) =
          rest.head?.any (·.kind.beginsStatement) := by
        cases rest <;> rfl
      rw [List.map_cons, synchronize, synchronize, begins, inductionHypothesis, apply_ite
        (List.map (Token.reline line)), apply_ite (List.map (Token.reline line))]
      rfl
  intro cursor
  have same := steps cursor
  rw [recovering, recovering, same]
  cases rule cursor with
  | ok statement after => rfl
  | error error after => simp [relined, Cursor.reline, skips]

/-- A declaration is found on the other lines, or skipped there as well. -/
theorem relines_declarationRule
    (inside : Relines line (Expr.reline line) expression expression)
    (parts : Relines line (Stmt.reline line) statement statement)
    (bodies : Relines line (Stmt.listReline line) block block) :
    Relines line (Option.map (Stmt.reline line)) (declarationRule expression statement block)
      (declarationRule expression statement block) := by
  refine relines_recovering (relines_ifAccepted parts fun token => ?_)
  simp only [Token.kind_reline]
  split
  · exact relines_classRule bodies
  · refine (relines_functionRule _ bodies).bind fun declaration => ?_
    rw [← Stmt.reline]
    exact relines_pure _
  · exact relines_declareRule inside

/-- Declarations are found one after the other. -/
theorem relines_declarationsWhile
    {more : Parse Bool}
    {declaration : Parse (Option Stmt)}
    (looks : Relines line id more more)
    (declarations : Relines line (Option.map (Stmt.reline line)) declaration declaration) :
    Relines line (Stmt.listReline line) (declarationsWhile more declaration)
      (declarationsWhile more declaration) := by
  have steps : ∀ statements : Array Stmt,
      Relines line (Option.map (Array.map (Stmt.reline line)))
        (nextDeclaration more declaration statements)
        (nextDeclaration more declaration (statements.map (Stmt.reline line))) := by
    intro statements
    refine looks.bind fun goesOn => ?_
    cases goesOn with
    | false => exact relines_pure none
    | true =>
      refine declarations.bind fun found => ?_
      cases found with
      | none => exact relines_pure (some statements)
      | some statement =>
        dsimp only [Option.map]
        rw [← Array.map_push]
        exact relines_pure (some (statements.push statement))
  have all := relines_extend steps #[]
  rw [Array.map_empty] at all
  refine all.bind fun statements => ?_
  rw [Array.toList_map, ← Stmt.listReline_eq_map]
  exact relines_pure statements.toList

theorem relines_blockRule
    {declaration : Parse (Option Stmt)}
    (declarations : Relines line (Option.map (Stmt.reline line)) declaration declaration) :
    Relines line (Stmt.listReline line) (blockRule declaration) (blockRule declaration) := by
  refine (relines_declarationsWhile ?_ declarations).bind fun statements => ?_
  · exact (relines_check _).bind fun closes => relines_atEnd.bind fun ends => relines_pure _
  · exact (relines_expect _ _).bind fun _ => relines_pure statements

end Statements

/-- Statements and blocks are found on the other lines, however deeply they are nested. -/
theorem relines_statement_and_block (line : Nat -> Nat) (room : Nat) :
    Relines line (Stmt.reline line) (statement room) (statement room) ∧
      Relines line (Stmt.listReline line) (block room) (block room) := by
  induction room with
  | zero => exact ⟨relines_fail _, relines_fail _⟩
  | succ room inductionHypothesis =>
    obtain ⟨parts, bodies⟩ := inductionHypothesis
    have inside := (relines_expression_and_unaryOperand line room).1
    exact ⟨relines_statementRule inside parts bodies,
      relines_blockRule (relines_declarationRule inside parts bodies)⟩

/-- A whole program is found on the other lines. -/
theorem relines_program (line : Nat -> Nat) :
    Relines line (Stmt.listReline line) program program := by
  obtain ⟨parts, bodies⟩ := relines_statement_and_block line maxNesting
  have inside := (relines_expression_and_unaryOperand line maxNesting).1
  exact relines_declarationsWhile (relines_atEnd.bind fun ends => relines_pure _)
    (relines_declarationRule inside parts bodies)

/-- So is a single expression. -/
theorem relines_wholeExpression (line : Nat -> Nat) :
    Relines line (Expr.reline line) wholeExpression wholeExpression := by
  have inside := (relines_expression_and_unaryOperand line maxNesting).1
  refine inside.bind fun result => relines_atEnd.bind fun ends => ?_
  cases ends with
  | true => exact relines_pure result
  | false => exact relines_fail _

end Parse

/-- Change the lines of what parsing leaves. -/
def Parsed.reline
    {α : Type}
    (line : Nat -> Nat)
    (change : α -> α)
    (parsed : Parsed α) : Parsed α :=
  ⟨change parsed.result, parsed.nextId, parsed.errors.map (·.reline line)⟩

/-- A program whose tokens are on other lines is parsed to the same statements with
the same numbers and errors, but for the lines. -/
theorem parseTokens_reline
    (line : Nat -> Nat)
    (tokens : List Token)
    (endToken : Token)
    (firstId : Nat) :
    parseTokens (tokens.map (·.reline line)) (endToken.reline line) firstId =
      (parseTokens tokens endToken firstId).reline line (Stmt.listReline line) := by
  have same := Parse.relines_program line ⟨tokens, endToken, firstId, #[]⟩
  rw [parseTokens, parseTokens]
  have start : Cursor.reline line ⟨tokens, endToken, firstId, #[]⟩ =
      ⟨tokens.map (·.reline line), endToken.reline line, firstId, #[]⟩ := by
    simp [Cursor.reline]
  rw [start] at same
  rw [same]
  cases Parse.program ⟨tokens, endToken, firstId, #[]⟩ <;>
    simp [Parse.relined, Parsed.reline, Cursor.reline, Stmt.listReline]

/-- An expression is parsed to the same one on other lines, with the same errors. -/
theorem parseExpressionTokens_reline
    (line : Nat -> Nat)
    (tokens : List Token)
    (endToken : Token) :
    parseExpressionTokens (tokens.map (·.reline line)) (endToken.reline line) =
      (parseExpressionTokens tokens endToken).reline line (Option.map (Expr.reline line)) := by
  have same := Parse.relines_wholeExpression line ⟨tokens, endToken, 0, #[]⟩
  rw [parseExpressionTokens, parseExpressionTokens]
  have start : Cursor.reline line ⟨tokens, endToken, 0, #[]⟩ =
      ⟨tokens.map (·.reline line), endToken.reline line, 0, #[]⟩ := by
    simp [Cursor.reline]
  rw [start] at same
  rw [same]
  cases Parse.wholeExpression ⟨tokens, endToken, 0, #[]⟩ <;>
    simp [Parse.relined, Parsed.reline, Cursor.reline]

end TreeWalk
