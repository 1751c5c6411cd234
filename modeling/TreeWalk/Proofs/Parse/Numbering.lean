import TreeWalk.Proofs.Grammar.Numbering
import TreeWalk.Proofs.Parse.Reading

/-!
# Numbers that readers give out

Whatever is parsed, with or without errors, its references have different numbers,
and these have been given out by this parse.  A reader keeps some of the numbers
of what was read before it and drops others: an assignment does not use the number
of its target, and what cannot be read is lost with its numbers.
-/

namespace TreeWalk
namespace Grammar

/-- Numbers may be dropped. -/
theorem Spans.sublist
    {first next : Nat}
    {ids others : List Nat}
    (spans : Spans first next ids)
    (kept : others.Sublist ids) :
    Spans first next others :=
  ⟨spans.ordered, fun id member => spans.bounds id (kept.subset member),
    spans.distinct.sublist kept⟩

/-- The range of the numbers may be wider. -/
theorem Spans.widen
    {first next later : Nat}
    {ids : List Nat}
    (spans : Spans first next ids)
    (notBelow : next ≤ later) :
    Spans first later ids := by
  refine ⟨Nat.le_trans spans.ordered notBelow, fun id member => ?_, spans.distinct⟩
  have bounds := spans.bounds id member
  exact ⟨bounds.1, Nat.lt_of_lt_of_le bounds.2 notBelow⟩

end Grammar

namespace Parse

open Grammar

/-- A reader comes after others whose numbers are held.  It never takes a number
back, and its result has different numbers: of those that are held and those that
the reader has given out. -/
def Numbers
    {α : Type}
    (held : List Nat)
    (ids : α -> List Nat)
    (reader : Parse α) : Prop :=
  ∀ first cursor, Spans first cursor.nextId held ->
    cursor.nextId ≤ (cursorAfter (reader cursor)).nextId ∧
      ∀ result after, reader cursor = .ok result after -> Spans first after.nextId (ids result)

section Rules

variable {α β : Type} {held : List Nat} {ids : α -> List Nat} {laterIds : β -> List Nat}

/-- A result may drop numbers that are held. -/
theorem numbers_pure
    {result : α}
    (kept : (ids result).Sublist held) :
    Numbers held ids (pure result) := by
  intro first cursor spans
  refine ⟨Nat.le_refl _, fun _ _ ended => ?_⟩
  cases ended
  exact spans.sublist kept

/-- The second reader holds the numbers of what the first one has found. -/
theorem Numbers.bind
    {reader : Parse α}
    {rest : α -> Parse β}
    (numbers : Numbers held ids reader)
    (later : ∀ result, Numbers (ids result) laterIds (rest result)) :
    Numbers held laterIds (reader >>= rest) := by
  intro first cursor spans
  obtain ⟨increases, spansResult⟩ := numbers first cursor spans
  cases outcome : reader cursor with
  | error error after =>
    rw [outcome] at increases
    rw [bind_of_error outcome]
    exact ⟨increases, fun _ _ ended => nomatch ended⟩
  | ok result after =>
    rw [outcome] at increases
    rw [bind_of_ok outcome]
    obtain ⟨further, spansLater⟩ := later result first after (spansResult result after outcome)
    exact ⟨Nat.le_trans increases further, spansLater⟩

/-- A reader that gives out no number. -/
theorem numbers_idle
    {reader : Parse α}
    (idle : ∀ cursor, (cursorAfter (reader cursor)).nextId = cursor.nextId) :
    Numbers held (fun _ => held) reader := by
  intro first cursor spans
  have same := idle cursor
  refine ⟨Nat.le_of_eq same.symm, fun result after ended => ?_⟩
  rw [ended] at same
  exact same ▸ spans

/-- A failure gives out no numbers. -/
theorem numbers_fail (fault : SyntaxFault) : Numbers held ids (fail fault : Parse α) :=
  fun _ _ _ => ⟨Nat.le_refl _, fun _ _ ended => nomatch ended⟩

theorem numbers_report (token : Token) (fault : SyntaxFault) :
    Numbers held (fun _ => held) (report token fault) :=
  numbers_idle fun _ => rfl

theorem numbers_reportNext (fault : SyntaxFault) :
    Numbers held (fun _ => held) (reportNext fault) :=
  numbers_idle fun _ => rfl

theorem numbers_check (kind : Token.Kind) : Numbers held (fun _ => held) (check kind) :=
  numbers_idle fun _ => rfl

theorem numbers_atEnd : Numbers held (fun _ => held) atEnd :=
  numbers_idle fun _ => rfl

/-- Reading a token gives out no numbers. -/
theorem numbers_acceptIf (admitted : Token.Kind -> Bool) :
    Numbers held (fun _ => held) (acceptIf admitted) := by
  refine numbers_idle fun cursor => ?_
  unfold acceptIf
  split
  · split <;> rfl
  · rfl

theorem numbers_accept (kind : Token.Kind) : Numbers held (fun _ => held) (accept kind) :=
  numbers_acceptIf _

/-- So does reading a token that is expected. -/
theorem numbers_expect (kind : Token.Kind) (what : String) :
    Numbers held (fun _ => held) (expect kind what) := by
  refine (numbers_accept kind).bind fun found => ?_
  cases found with
  | none => exact numbers_fail _
  | some token => exact numbers_pure (List.Sublist.refl _)

/-- A new reference has the number that is given out for it. -/
theorem numbers_freshReference (name : Token) :
    Numbers held (fun reference => held ++ [reference.id]) (freshReference name) := by
  intro first cursor spans
  refine ⟨Nat.le_succ _, fun _ _ ended => ?_⟩
  cases ended
  exact spans.append (.one cursor.nextId)

/-- What is read in one place is read in the same way after something else. -/
theorem Numbers.after
    {reader : Parse α}
    (numbers : Numbers [] ids reader)
    (held : List Nat) :
    Numbers held (fun result => held ++ ids result) reader := by
  intro first cursor spans
  obtain ⟨increases, spansResult⟩ := numbers cursor.nextId cursor (.empty _)
  exact ⟨increases, fun result after ended => spans.append (spansResult result after ended)⟩

/-- Steps that each hold the numbers of the result so far hold those of the first one. -/
theorem numbers_extendAtMost
    {step : α -> Parse (Option α)}
    (steps : ∀ result, Numbers (ids result) (fun found => ids (found.getD result)) (step result))
    (count : Nat)
    (start : α) :
    Numbers (ids start) ids (extendAtMost step count start) := by
  induction count generalizing start with
  | zero => exact numbers_pure (List.Sublist.refl _)
  | succ count inductionHypothesis =>
    refine (steps start).bind fun found => ?_
    cases found with
    | none => exact numbers_pure (List.Sublist.refl _)
    | some longer => exact inductionHypothesis longer

theorem numbers_extend
    {step : α -> Parse (Option α)}
    (steps : ∀ result, Numbers (ids result) (fun found => ids (found.getD result)) (step result))
    (start : α) :
    Numbers (ids start) ids (extend step start) := by
  refine (steps start).bind fun found => ?_
  cases found with
  | none => exact numbers_pure (List.Sublist.refl _)
  | some longer =>
    have looks : Numbers (ids longer) (fun _ => ids longer) (get : Parse Cursor) :=
      numbers_idle fun _ => rfl
    exact looks.bind fun cursor => numbers_extendAtMost steps _ longer

end Rules

section Lists

variable {α : Type} {ids : α -> List Nat} {item : Parse α}

/-- One more item adds its own numbers to those of the items before it. -/
theorem numbers_nextItem
    (items : Numbers [] ids item)
    (what : String)
    (found : Array α) :
    Numbers (found.toList.flatMap ids) (fun more => (more.getD found).toList.flatMap ids)
      (nextItem what item found) := by
  refine (numbers_accept _).bind fun comma => ?_
  cases comma with
  | none => exact numbers_pure (List.Sublist.refl _)
  | some comma =>
    have read : Numbers (found.toList.flatMap ids)
        (fun more => (more.getD found).toList.flatMap ids)
        (item >>= fun next => pure (some (found.push next))) := by
      refine (items.after _).bind fun next => numbers_pure ?_
      simp
    dsimp only
    split
    · exact (numbers_reportNext _).bind fun _ => read
    · exact read

/-- A list with commas has the numbers of its items. -/
theorem numbers_commaSeparated
    (items : Numbers [] ids item)
    (what : String) :
    Numbers [] (·.flatMap ids) (commaSeparated what item) := by
  refine items.bind fun first => ?_
  have all := numbers_extend (numbers_nextItem items what) #[first]
  have single : (#[first] : Array α).toList.flatMap ids = ids first := by simp
  rw [single] at all
  exact all.bind fun found => numbers_pure (List.Sublist.refl _)

/-- So has a list in parentheses. -/
theorem numbers_parenthesized
    (items : Numbers [] ids item)
    (what : String) :
    Numbers [] (fun result => result.1.flatMap ids) (parenthesized what item) := by
  refine (numbers_check _).bind fun isClosed => ?_
  have listed : Numbers [] (·.flatMap ids)
      (if isClosed then pure [] else commaSeparated what item) := by
    split
    · exact numbers_pure (List.Sublist.refl _)
    · exact numbers_commaSeparated items what
  have read := listed.bind fun found =>
    (numbers_expect (.symbol .rightParen) ("')' after " ++ what)).bind
      fun paren => (numbers_pure (List.Sublist.refl _) :
        Numbers (found.flatMap ids) (fun result : List α × Token => result.1.flatMap ids)
          (pure (found, paren)))
  split at read
  · rename_i closed
    rw [if_pos closed]
    exact read
  · rename_i notClosed
    rw [if_neg notClosed]
    exact read

end Lists

/-! ## Expressions -/

section Expressions

variable {expression operand : Parse Expr}

/-- A chain of operators has the numbers of its operands. -/
theorem numbers_leftAssociative
    {combine : Expr -> Token -> Expr -> Expr}
    (combines : ∀ left operator right, (combine left operator right).ids = left.ids ++ right.ids)
    (operands : Numbers [] Expr.ids operand)
    (isOperator : Token.Kind -> Bool) :
    Numbers [] Expr.ids (leftAssociative isOperator combine operand) := by
  have steps : ∀ left : Expr, Numbers left.ids (fun found => (found.getD left).ids)
      (nextOperand isOperator combine operand left) := by
    intro left
    refine (numbers_acceptIf _).bind fun operator => ?_
    cases operator with
    | none => exact numbers_pure (List.Sublist.refl _)
    | some operator =>
      refine (operands.after _).bind fun right => numbers_pure ?_
      simp [combines]
  exact operands.bind fun first => numbers_extend steps first

/-- A primary expression has a number of its own, or those inside of it. -/
theorem numbers_primaryRule
    (inside : Numbers [] Expr.ids expression) :
    Numbers [] Expr.ids (primaryRule expression) := by
  refine (numbers_acceptIf _).bind fun found => ?_
  cases found with
  | none => exact numbers_fail _
  | some token =>
    dsimp only
    split
    · exact numbers_pure (by simp)
    · exact numbers_pure (by simp)
    · exact numbers_pure (by simp)
    · exact numbers_pure (by simp)
    · exact numbers_pure (by simp)
    · exact (numbers_freshReference token).bind fun reference => numbers_pure (by simp)
    · exact (numbers_freshReference token).bind fun reference => numbers_pure (by simp)
    · refine (numbers_expect _ _).bind fun dot => (numbers_expect _ _).bind fun method => ?_
      exact (numbers_freshReference token).bind fun reference => numbers_pure (by simp)
    · refine inside.bind fun inner => (numbers_expect _ _).bind fun closing => ?_
      exact numbers_pure (by simp)

/-- A chain of calls and properties has the numbers of its parts. -/
theorem numbers_callRule
    (inside : Numbers [] Expr.ids expression) :
    Numbers [] Expr.ids (callRule expression) := by
  have steps : ∀ callee : Expr, Numbers callee.ids (fun found => (found.getD callee).ids)
      (nextCall expression callee) := by
    intro callee
    refine (numbers_accept _).bind fun opening => ?_
    cases opening with
    | some opening =>
      refine ((numbers_parenthesized inside _).after _).bind ?_
      rintro ⟨arguments, paren⟩
      refine numbers_pure ?_
      simp [Expr.ids, Expr.listIds_eq_flatMap]
    | none =>
      refine (numbers_accept _).bind fun dot => ?_
      cases dot with
      | none => exact numbers_pure (List.Sublist.refl _)
      | some dot => exact (numbers_expect _ _).bind fun name => numbers_pure (by simp)
  exact (numbers_primaryRule inside).bind fun first => numbers_extend steps first

/-- A unary expression has the numbers of its operand. -/
theorem numbers_unaryRule
    (operands : Numbers [] Expr.ids operand)
    (inside : Numbers [] Expr.ids expression) :
    Numbers [] Expr.ids (unaryRule operand expression) := by
  refine (numbers_acceptIf _).bind fun operator => ?_
  cases operator with
  | none => exact numbers_callRule inside
  | some operator => exact operands.bind fun right => numbers_pure (by simp)

/-- Binary and logical expressions of every rank have the numbers of their operands. -/
theorem numbers_operatorRule
    (operands : Numbers [] Expr.ids operand) :
    Numbers [] Expr.ids (operatorRule operand) := by
  have logical : ∀ isOperator {inner}, Numbers [] Expr.ids inner ->
      Numbers [] Expr.ids (leftAssociative isOperator .logical inner) :=
    fun isOperator _ inner => numbers_leftAssociative (by simp) inner isOperator
  have binary : ∀ isOperator {inner}, Numbers [] Expr.ids inner ->
      Numbers [] Expr.ids (leftAssociative isOperator .binary inner) :=
    fun isOperator _ inner => numbers_leftAssociative (by simp) inner isOperator
  exact logical _ (logical _ (binary _ (binary _ (binary _ (binary _ operands)))))

/-- An assignment drops the number that its target has been read with, and an
invalid target is kept without the value. -/
theorem numbers_assignmentTo (target : Expr) (equals : Token) (value : Expr) :
    Numbers (target.ids ++ value.ids) Expr.ids (assignmentTo target equals value) := by
  cases target
  case read reference =>
    intro first cursor spans
    have value := spans.sublist (List.sublist_append_right [reference.id] value.ids)
    exact (numbers_freshReference reference.name).bind
      (fun fresh => numbers_pure (by simp)) first cursor value
  case property object name => exact numbers_pure (by simp)
  all_goals exact (numbers_report _ _).bind fun _ => numbers_pure (List.sublist_append_left _ _)

/-- An assignment has a new number for its target, in place of the one that the target was
read with. -/
theorem numbers_assignmentRule
    (operands : Numbers [] Expr.ids operand)
    (inside : Numbers [] Expr.ids expression) :
    Numbers [] Expr.ids (assignmentRule operand expression) := by
  refine (numbers_operatorRule operands).bind fun left => (numbers_accept _).bind fun equals => ?_
  cases equals with
  | none => exact numbers_pure (List.Sublist.refl _)
  | some equals => exact (inside.after _).bind fun value => numbers_assignmentTo left equals value

end Expressions

/-- Expressions and operands have different numbers, however deeply they are nested. -/
theorem numbers_expression_and_unaryOperand (room : Nat) :
    Numbers [] Expr.ids (expression room) ∧ Numbers [] Expr.ids (unaryOperand room) := by
  induction room with
  | zero => exact ⟨numbers_fail _, numbers_fail _⟩
  | succ room inductionHypothesis =>
    obtain ⟨inside, operands⟩ := inductionHypothesis
    have unary := numbers_unaryRule operands inside
    exact ⟨numbers_assignmentRule unary inside, unary⟩

section Statements

variable {expression : Parse Expr} {statement : Parse Stmt} {block : Parse (List Stmt)}

theorem numbers_optionalUnless
    (kind : Token.Kind)
    (inside : Numbers [] Expr.ids expression) :
    Numbers [] Expr.optionIds (optionalUnless kind expression) := by
  refine (numbers_check _).bind fun isNext => ?_
  cases isNext with
  | true => exact numbers_pure (List.Sublist.refl _)
  | false => exact inside.bind fun value => numbers_pure (List.Sublist.refl _)

/-- A variable declaration has the numbers of its initializer. -/
theorem numbers_declareRule
    (inside : Numbers [] Expr.ids expression) :
    Numbers [] Stmt.ids (declareRule expression) := by
  refine (numbers_expect _ _).bind fun name => (numbers_accept _).bind fun equals => ?_
  cases equals with
  | none => exact (numbers_expect _ _).bind fun _ => numbers_pure (by simp [Expr.optionIds])
  | some equals =>
    refine inside.bind fun value => (numbers_expect _ _).bind fun _ => numbers_pure ?_
    simp [Expr.optionIds]

/-- An expression statement has the numbers of its expression. -/
theorem numbers_expressionStatementRule
    (inside : Numbers [] Expr.ids expression) :
    Numbers [] Stmt.ids (expressionStatementRule expression) :=
  inside.bind fun value => (numbers_expect _ _).bind fun _ => numbers_pure (by simp)

/-- A print statement has the numbers of its expression. -/
theorem numbers_printRule
    (inside : Numbers [] Expr.ids expression) :
    Numbers [] Stmt.ids (printRule expression) :=
  inside.bind fun value => (numbers_expect _ _).bind fun _ => numbers_pure (by simp)

/-- A return statement has the numbers of its expression, if there is one. -/
theorem numbers_returnRule
    (keyword : Token)
    (inside : Numbers [] Expr.ids expression) :
    Numbers [] Stmt.ids (returnRule keyword expression) :=
  (numbers_optionalUnless _ inside).bind fun value =>
    (numbers_expect _ _).bind fun _ => numbers_pure (by simp)

/-- A conditional has the numbers of its condition and its branches. -/
theorem numbers_conditionalRule
    (inside : Numbers [] Expr.ids expression)
    (steps : Numbers [] Stmt.ids statement) :
    Numbers [] Stmt.ids (conditionalRule expression statement) := by
  refine (numbers_expect _ _).bind fun _ => inside.bind fun condition => ?_
  refine (numbers_expect _ _).bind fun _ => (steps.after _).bind fun thenBranch => ?_
  refine (numbers_accept _).bind fun found => ?_
  cases found with
  | none => exact numbers_pure (by simp)
  | some found => exact (steps.after _).bind fun elseBranch => numbers_pure (by simp)

/-- A loop has the numbers of its condition and its body. -/
theorem numbers_whileRule
    (inside : Numbers [] Expr.ids expression)
    (steps : Numbers [] Stmt.ids statement) :
    Numbers [] Stmt.ids (whileRule expression statement) := by
  refine (numbers_expect _ _).bind fun _ => inside.bind fun condition => ?_
  exact (numbers_expect _ _).bind fun _ => (steps.after _).bind fun body => numbers_pure (by simp)

/-- What begins a loop with a header has the numbers of its expression. -/
theorem numbers_forInitializerRule
    (inside : Numbers [] Expr.ids expression) :
    Numbers [] Stmt.optionIds (forInitializerRule expression) := by
  refine (numbers_accept _).bind fun semicolon => ?_
  cases semicolon with
  | some semicolon => exact numbers_pure (by simp)
  | none =>
    refine (numbers_accept _).bind fun word => ?_
    cases word with
    | some word => exact (numbers_declareRule inside).bind fun step => numbers_pure (by simp)
    | none =>
      exact (numbers_expressionStatementRule inside).bind fun step => numbers_pure (by simp)

/-- The numbers of a loop are those of its clauses and of its body, which is read
after the increment though it is executed before it. -/
theorem ids_forLoop
    (initializer : Option Stmt)
    (condition increment : Option Expr)
    (body : Stmt) :
    (forLoop initializer condition increment body).ids =
      Stmt.optionIds initializer ++ (Expr.optionIds condition ++
        (body.ids ++ Expr.optionIds increment)) := by
  cases initializer <;> cases condition <;> cases increment <;>
    simp [forLoop, Expr.optionIds]

/-- A loop with a header has the numbers of its clauses and its body. -/
theorem numbers_forRule
    (inside : Numbers [] Expr.ids expression)
    (steps : Numbers [] Stmt.ids statement) :
    Numbers [] Stmt.ids (forRule expression statement) := by
  refine (numbers_expect _ _).bind fun _ => ?_
  refine (numbers_forInitializerRule inside).bind fun initializer => ?_
  refine ((numbers_optionalUnless _ inside).after _).bind fun condition => ?_
  refine (numbers_expect _ _).bind fun _ => ?_
  refine ((numbers_optionalUnless _ inside).after _).bind fun increment => ?_
  refine (numbers_expect _ _).bind fun _ => (steps.after _).bind fun body => ?_
  intro first cursor spans
  refine numbers_pure (List.Sublist.refl _) first cursor (spans.perm ?_)
  rw [ids_forLoop, List.append_assoc, List.append_assoc]
  exact (List.perm_append_comm.append_left _).append_left _

/-- A function has the numbers of its body. -/
theorem numbers_functionRule
    (what : String)
    (body : Numbers [] Stmt.listIds block) :
    Numbers [] FunctionDecl.ids (functionRule what block) := by
  have names : Numbers [] (fun _ => []) (expect .identifier "parameter name") :=
    numbers_expect _ _
  refine (numbers_expect _ _).bind fun name => (numbers_expect _ _).bind fun _ => ?_
  refine (numbers_parenthesized names _).bind ?_
  rintro ⟨parameters, paren⟩
  refine (numbers_expect _ _).bind fun _ => ?_
  have unnumbered : parameters.flatMap (fun _ => ([] : List Nat)) = [] := by simp
  dsimp only
  rw [unnumbered]
  exact body.bind fun steps => numbers_pure (by simp)

/-- Methods have the numbers of their bodies, one after the other. -/
theorem numbers_methodsRule
    (body : Numbers [] Stmt.listIds block) :
    Numbers [] FunctionDecl.listIds (methodsRule block) := by
  let held (methods : Array FunctionDecl) : List Nat := methods.toList.flatMap FunctionDecl.ids
  have steps : ∀ methods : Array FunctionDecl,
      Numbers (held methods) (fun found => held (found.getD methods)) (do
        if (← check (.symbol .rightBrace)) || (← atEnd) then
          return none
        else
          return some (methods.push (← functionRule "method" block))) := by
    intro methods
    refine (numbers_check _).bind fun isClosed => numbers_atEnd.bind fun isEnd => ?_
    cases isClosed || isEnd with
    | true => exact numbers_pure (List.Sublist.refl _)
    | false =>
      refine ((numbers_functionRule "method" body).after _).bind fun method => numbers_pure ?_
      simp [held]
  have all := numbers_extend steps #[]
  refine all.bind fun methods => numbers_pure ?_
  simp [held, FunctionDecl.listIds_eq_flatMap]

/-- A superclass has one number, if there is one. -/
theorem numbers_superclassRule : Numbers [] Reference.optionIds superclassRule := by
  refine (numbers_accept _).bind fun less => ?_
  cases less with
  | none => exact numbers_pure (List.Sublist.refl _)
  | some less =>
    refine (numbers_expect _ _).bind fun name => ?_
    exact (numbers_freshReference name).bind fun reference => numbers_pure (List.Sublist.refl _)

/-- A class has the numbers of its superclass and its methods. -/
theorem numbers_classRule
    (body : Numbers [] Stmt.listIds block) :
    Numbers [] Stmt.ids (classRule block) := by
  refine (numbers_expect _ _).bind fun name => numbers_superclassRule.bind fun superclass => ?_
  refine (numbers_expect _ _).bind fun _ => ((numbers_methodsRule body).after _).bind ?_
  exact fun methods => (numbers_expect _ _).bind fun _ => numbers_pure (by simp)

/-- A statement has the numbers of its parts. -/
theorem numbers_statementRule
    (inside : Numbers [] Expr.ids expression)
    (steps : Numbers [] Stmt.ids statement)
    (body : Numbers [] Stmt.listIds block) :
    Numbers [] Stmt.ids (statementRule expression statement block) := by
  refine (numbers_acceptIf _).bind fun found => ?_
  cases found with
  | none => exact numbers_expressionStatementRule inside
  | some token =>
    dsimp only
    split
    · exact numbers_forRule inside steps
    · exact numbers_conditionalRule inside steps
    · exact numbers_printRule inside
    · exact numbers_returnRule token inside
    · exact numbers_whileRule inside steps
    · exact body.bind fun steps => numbers_pure (by simp)

/-- A statement that cannot be read is lost, with the numbers that were given out
for it. -/
theorem numbers_recovering
    {rule : Parse Stmt}
    (steps : Numbers [] Stmt.ids rule) :
    Numbers [] Stmt.optionIds (recovering rule) := by
  intro first cursor spans
  obtain ⟨increases, spansResult⟩ := steps first cursor spans
  unfold recovering
  cases outcome : rule cursor with
  | ok step after =>
    rw [outcome] at increases
    refine ⟨increases, fun _ _ ended => ?_⟩
    cases ended
    rw [Stmt.optionIds]
    exact spansResult step after outcome
  | error error after =>
    rw [outcome] at increases
    refine ⟨increases, fun _ _ ended => ?_⟩
    cases ended
    rw [Stmt.optionIds]
    exact spans.widen increases

/-- A declaration has the numbers of its parts, and none if it is skipped. -/
theorem numbers_declarationRule
    (inside : Numbers [] Expr.ids expression)
    (steps : Numbers [] Stmt.ids statement)
    (body : Numbers [] Stmt.listIds block) :
    Numbers [] Stmt.optionIds (declarationRule expression statement block) := by
  refine numbers_recovering ((numbers_acceptIf _).bind fun found => ?_)
  cases found with
  | none => exact steps
  | some token =>
    dsimp only
    split
    · exact numbers_classRule body
    · exact (numbers_functionRule _ body).bind fun declaration => numbers_pure (by simp)
    · exact numbers_declareRule inside

/-- Declarations have different numbers, those that are skipped left out. -/
theorem numbers_declarationsWhile
    {more : Parse Bool}
    {declaration : Parse (Option Stmt)}
    (looks : ∀ held, Numbers held (fun _ => held) more)
    (declarations : Numbers [] Stmt.optionIds declaration) :
    Numbers [] Stmt.listIds (declarationsWhile more declaration) := by
  let held (statements : Array Stmt) : List Nat := statements.toList.flatMap Stmt.ids
  refine (@numbers_extend _ held _ (fun statements => ?_) #[]).bind fun statements =>
    numbers_pure ?_
  · refine (looks _).bind fun goesOn => ?_
    cases goesOn with
    | false => exact numbers_pure (List.Sublist.refl _)
    | true =>
      refine (declarations.after _).bind fun found => ?_
      cases found with
      | none => exact numbers_pure (by simp)
      | some statement => exact numbers_pure (by simp [held])
  · simp [held, Stmt.listIds_eq_flatMap]

/-- A block has the numbers of its declarations. -/
theorem numbers_blockRule
    {declaration : Parse (Option Stmt)}
    (declarations : Numbers [] Stmt.optionIds declaration) :
    Numbers [] Stmt.listIds (blockRule declaration) := by
  refine (numbers_declarationsWhile (fun held => ?_) declarations).bind fun steps => ?_
  · exact (numbers_check _).bind fun _ => numbers_atEnd.bind fun _ =>
      numbers_pure (List.Sublist.refl _)
  · exact (numbers_expect _ _).bind fun _ => numbers_pure (List.Sublist.refl _)

end Statements

/-- Statements and blocks have different numbers, however deeply they are nested. -/
theorem numbers_statement_and_block (room : Nat) :
    Numbers [] Stmt.ids (statement room) ∧ Numbers [] Stmt.listIds (block room) := by
  induction room with
  | zero => exact ⟨numbers_fail _, numbers_fail _⟩
  | succ room inductionHypothesis =>
    obtain ⟨steps, body⟩ := inductionHypothesis
    have inside := (numbers_expression_and_unaryOperand room).1
    exact ⟨numbers_statementRule inside steps body,
      numbers_blockRule (numbers_declarationRule inside steps body)⟩

/-- All references of a program have different numbers. -/
theorem numbers_program : Numbers [] Stmt.listIds program := by
  obtain ⟨steps, body⟩ := numbers_statement_and_block maxNesting
  have inside := (numbers_expression_and_unaryOperand maxNesting).1
  refine numbers_declarationsWhile (fun held => ?_) (numbers_declarationRule inside steps body)
  exact numbers_atEnd.bind fun _ => numbers_pure (List.Sublist.refl _)

/-- The references of a parsed program have different numbers, all of them given
out by this parse, also if there were errors. -/
theorem spans_parseTokens (tokens : List Token) (endToken : Token) (firstId : Nat) :
    Spans firstId (parseTokens tokens endToken firstId).nextId
      (Stmt.listIds (parseTokens tokens endToken firstId).result) := by
  obtain ⟨increases, spans⟩ :=
    numbers_program firstId ⟨tokens, endToken, firstId, #[]⟩ (.empty firstId)
  rw [parseTokens]
  cases outcome : program ⟨tokens, endToken, firstId, #[]⟩ with
  | ok statements cursor => exact spans statements cursor outcome
  | error error cursor =>
    rw [outcome] at increases
    exact (Spans.empty firstId).widen increases

end Parse
end TreeWalk
