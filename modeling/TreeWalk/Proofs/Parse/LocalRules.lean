import TreeWalk.Proofs.Parse.Locality

/-!
# The rules of the grammar on an excerpt

Every rule that reads a phrase up to its last token finds the same in an excerpt
as in the whole, and so does a declaration, even where it is skipped.  Only the
rules that end before a closing token (`tracks_optionalUnless`,
`tracks_methodsRule`, `tracks_declarationsWhile`) look at the token behind.
-/

namespace TreeWalk
namespace Parse

/-- A reader that reads a token, and finds in the excerpt what it finds in the
whole, but for a change. -/
def Excerpt.Steady {α : Type} (excerpt : Excerpt) (change : α -> α) (reader : Parse α) : Prop :=
  ∀ valid : Prop, Tracks excerpt true always valid (Agrees change) reader reader

/-- A reader that is steady on an excerpt finds the same on it as on the whole. -/
theorem Excerpt.Steady.tracks
    {α : Type}
    {excerpt : Excerpt}
    {valid : Prop}
    {change : α -> α}
    {reader : Parse α}
    (steady : excerpt.Steady change reader) :
    Tracks excerpt true always valid (Agrees change) reader reader :=
  steady valid

/-- Reading a token is steady. -/
theorem steady_expect (excerpt : Excerpt) (kind : Token.Kind) (what : String) :
    excerpt.Steady id (expect kind what) :=
  fun _ => tracks_expect kind what

section Items

variable
  {α : Type}
  {excerpt : Excerpt}
  {change : α -> α}
  {item : Parse α}

/-- One more item is found in both runs or in neither. -/
theorem tracks_nextItem
    (items : excerpt.Steady change item)
    (what : String)
    (found own : Array α) :
    Tracks excerpt true Option.isSome (Agrees (Array.map change) found own)
      (Option.Rel (Agrees (Array.map change))) (nextItem what item found)
      (nextItem what item own) := by
  have pushes : ∀ {valid : Prop}, (valid -> Agrees (Array.map change) found own) ->
      Tracks excerpt true always valid (Option.Rel (Agrees (Array.map change)))
        (do return some (found.push (← item))) (do return some (own.push (← item))) := by
    intro valid implies
    refine items.tracks.spending fun result other => tracks_pure fun isValid => .some ?_
    have isFound := implies isValid.1
    rw [Agrees, isFound, Array.map_push, isValid.2]
  have notes : Tracks excerpt true always (Agrees (Array.map change) found own)
      (Option.Rel (Agrees (Array.map change)))
      (do reportNext (.tooMany what); return some (found.push (← item)))
      (do reportNext (.tooMany what); return some (own.push (← item))) :=
    (tracks_reportNext _).peeking fun _ _ => pushes And.left
  have sizes : Agrees (Array.map change) found own -> found.size = own.size := by
    rintro rfl
    exact Array.size_map
  refine tracks_acceptIf tracks_none fun token => ?_
  dsimp only
  split <;> split
  · exact notes.anyway
  · refine notes.anyway.vacuous fun isValid => ?_
    have := sizes isValid
    omega
  · refine (pushes id).anyway.vacuous fun isValid => ?_
    have := sizes isValid
    omega
  · exact (pushes id).anyway

/-- Reading a list with commas is steady if reading its items is. -/
theorem steady_commaSeparated
    (items : excerpt.Steady change item)
    (what : String) :
    excerpt.Steady (List.map change) (commaSeparated what item) := by
  intro valid
  refine items.tracks.spending fun first ownFirst => ?_
  have longer := tracks_extend (tracks_nextItem items what)
    fun _ _ isEmpty => acceptIf_bind_of_end isEmpty _ _
  refine ((longer #[first] #[ownFirst]).given ?_).keeping fun found ownFound => tracks_pure ?_
  · rintro ⟨-, rfl⟩
    simp [Agrees]
  · rintro ⟨-, rfl⟩
    exact Array.toList_map

/-- So is reading a list up to its closing parenthesis. -/
theorem steady_parenthesized
    (items : excerpt.Steady change item)
    (what : String) :
    excerpt.Steady (Prod.map (List.map change) id) (parenthesized what item) := by
  intro valid
  have closes : ∀ {valid} found own, (valid -> found = own.map change) ->
      Tracks excerpt true always valid (Agrees (Prod.map (List.map change) id))
        (do return (found, ← expect (.symbol .rightParen) ("')' after " ++ what)))
        (do return (own, ← expect (.symbol .rightParen) ("')' after " ++ what))) := by
    intro valid found own isFound
    refine (tracks_expect _ _).spending fun paren ownParen => tracks_pure fun isValid => ?_
    rw [Agrees, isFound isValid.1, isValid.2]
    rfl
  refine (tracks_check _).choose (fun _ => .inr fun _ => rfl) ?_ ?_
  · exact closes [] [] fun _ => rfl
  · exact (steady_commaSeparated items what).tracks.keeping fun found own =>
      closes found own And.right

end Items

/-! ## Expressions -/

section Expressions

variable
  {excerpt : Excerpt}
  {operand expression : Parse Expr}

/-- So is reading a chain of operators. -/
theorem steady_leftAssociative
    {combine : Expr -> Token -> Expr -> Expr}
    (combines : ∀ left operator right, (combine left operator right).renumber excerpt.number =
      combine (left.renumber excerpt.number) operator (right.renumber excerpt.number))
    (isOperator : Token.Kind -> Bool)
    (operands : excerpt.Steady (Expr.renumber excerpt.number) operand) :
    excerpt.Steady (Expr.renumber excerpt.number)
      (leftAssociative isOperator combine operand) := by
  have steps : ∀ left own, Tracks excerpt true Option.isSome
      (Agrees (Expr.renumber excerpt.number) left own)
      (Option.Rel (Agrees (Expr.renumber excerpt.number)))
      (nextOperand isOperator combine operand left)
      (nextOperand isOperator combine operand own) := by
    intro left own
    refine tracks_acceptIf tracks_none fun operator => ?_
    refine operands.tracks.anyway.keeping fun right ownRight => tracks_pure ?_
    rintro ⟨rfl, rfl⟩
    exact .some (combines _ _ _).symm
  intro valid
  refine operands.tracks.spending fun first ownFirst => ?_
  have longer := tracks_extend steps fun _ _ isEmpty => acceptIf_bind_of_end isEmpty _ _
  exact (longer first ownFirst).given And.right

/-- Reading a primary expression is steady. -/
theorem steady_primaryRule
    (inside : excerpt.Steady (Expr.renumber excerpt.number) expression) :
    excerpt.Steady (Expr.renumber excerpt.number) (primaryRule expression) := by
  intro valid
  refine tracks_acceptIf (tracks_fail _) fun token => ?_
  dsimp only
  split
  · exact tracks_pure fun _ => rfl
  · exact tracks_pure fun _ => rfl
  · exact tracks_pure fun _ => rfl
  · exact tracks_pure fun _ => rfl
  · exact tracks_pure fun _ => rfl
  · refine (tracks_freshReference fun _ => rfl).keeping fun reference own => tracks_pure ?_
    rintro ⟨-, rfl⟩
    rfl
  · refine (tracks_freshReference fun _ => rfl).keeping fun reference own => tracks_pure ?_
    rintro ⟨-, rfl⟩
    rfl
  · refine (tracks_expect _ _).keeping fun dot ownDot => ?_
    refine (tracks_expect _ _).keeping fun method ownMethod => ?_
    refine (tracks_freshReference fun _ => rfl).keeping fun reference own => tracks_pure ?_
    rintro ⟨⟨-, rfl⟩, rfl⟩
    rfl
  · refine inside.tracks.keeping fun inner own => ?_
    refine (tracks_expect _ _).keeping fun _ _ => tracks_pure ?_
    rintro ⟨⟨-, rfl⟩, -⟩
    rfl

/-- Reading a chain of calls and properties is steady. -/
theorem steady_callRule
    (inside : excerpt.Steady (Expr.renumber excerpt.number) expression) :
    excerpt.Steady (Expr.renumber excerpt.number) (callRule expression) := by
  have steps : ∀ callee own, Tracks excerpt true Option.isSome
      (Agrees (Expr.renumber excerpt.number) callee own)
      (Option.Rel (Agrees (Expr.renumber excerpt.number)))
      (nextCall expression callee) (nextCall expression own) := by
    intro callee own
    refine tracks_acceptIf (tracks_acceptIf tracks_none fun dot => ?_) fun paren => ?_
    · refine (tracks_expect _ _).keeping fun name ownName => tracks_pure ?_
      rintro ⟨rfl, rfl⟩
      exact .some rfl
    · refine (steady_parenthesized inside _).tracks.keeping ?_
      rintro ⟨arguments, closing⟩ ⟨ownArguments, ownClosing⟩
      refine tracks_pure ?_
      rintro ⟨rfl, isListed⟩
      cases isListed
      refine .some ?_
      rw [Agrees, Expr.renumber, Expr.listRenumber_eq_map]
      rfl
  have idle : ∀ callee cursor, cursor.rest = [] ->
      nextCall expression callee cursor = .ok none cursor := by
    intro callee cursor isEmpty
    exact (acceptIf_bind_of_end isEmpty _ _).trans (acceptIf_bind_of_end isEmpty _ _)
  intro valid
  refine (steady_primaryRule inside).tracks.spending fun first ownFirst => ?_
  exact (tracks_extend steps idle first ownFirst).given And.right

/-- Reading a unary expression is steady. -/
theorem steady_unaryRule
    (operands : excerpt.Steady (Expr.renumber excerpt.number) operand)
    (inside : excerpt.Steady (Expr.renumber excerpt.number) expression) :
    excerpt.Steady (Expr.renumber excerpt.number) (unaryRule operand expression) := by
  intro valid
  refine tracks_acceptIf (steady_callRule inside).tracks fun operator => ?_
  refine operands.tracks.keeping fun right ownRight => tracks_pure ?_
  rintro ⟨-, rfl⟩
  rfl

/-- Reading binary and logical expressions of every rank is steady. -/
theorem steady_operatorRule
    (operands : excerpt.Steady (Expr.renumber excerpt.number) operand) :
    excerpt.Steady (Expr.renumber excerpt.number) (operatorRule operand) := by
  have logical : ∀ isOperator {inner}, excerpt.Steady (Expr.renumber excerpt.number) inner ->
      excerpt.Steady (Expr.renumber excerpt.number) (leftAssociative isOperator .logical inner) :=
    fun isOperator _ => steady_leftAssociative (by intros; rfl) isOperator
  have binary : ∀ isOperator {inner}, excerpt.Steady (Expr.renumber excerpt.number) inner ->
      excerpt.Steady (Expr.renumber excerpt.number) (leftAssociative isOperator .binary inner) :=
    fun isOperator _ => steady_leftAssociative (by intros; rfl) isOperator
  exact logical _ (logical _ (binary _ (binary _ (binary _ (binary _ operands)))))

/-- An assignment is made of the same target and value in both runs. -/
theorem tracks_assignmentTo
    {target own value ownValue : Expr}
    {valid : Prop}
    (isTarget : valid -> Agrees (Expr.renumber excerpt.number) target own)
    (isValue : valid -> Agrees (Expr.renumber excerpt.number) value ownValue)
    (equals : Token) :
    Tracks excerpt true never valid (Agrees (Expr.renumber excerpt.number))
      (assignmentTo target equals value) (assignmentTo own equals ownValue) := by
  by_cases isValid : valid
  · obtain rfl := isTarget isValid
    obtain rfl := isValue isValid
    cases own
    case read reference =>
      refine (tracks_freshReference fun _ => rfl).keeping fun fresh ownFresh => tracks_pure ?_
      rintro ⟨-, rfl⟩
      rfl
    case property object name => exact tracks_pure fun _ => rfl
    all_goals exact (tracks_report _ _).keeping fun _ _ => tracks_pure fun _ => rfl
  · have alone : Tracks excerpt true never False (Agrees (Expr.renumber excerpt.number))
        (assignmentTo target equals value) (assignmentTo target equals value) := by
      cases target
      case read reference =>
        exact (tracks_freshReference False.elim).keeping fun _ _ =>
          tracks_pure fun never => never.1.elim
      case property object name => exact tracks_pure False.elim
      all_goals exact (tracks_report _ _).keeping fun _ _ => tracks_pure fun never => never.1.elim
    exact alone.vacuous isValid

/-- Reading an assignment is steady. -/
theorem steady_assignmentRule
    (operands : excerpt.Steady (Expr.renumber excerpt.number) operand)
    (inside : excerpt.Steady (Expr.renumber excerpt.number) expression) :
    excerpt.Steady (Expr.renumber excerpt.number) (assignmentRule operand expression) := by
  intro valid
  refine (steady_operatorRule operands).tracks.spending fun left ownLeft => ?_
  refine tracks_acceptIf (tracks_pure And.right) fun equals => ?_
  refine inside.tracks.anyway.keeping fun value ownValue => ?_
  exact tracks_assignmentTo (fun isValid => isValid.1.2) And.right equals

end Expressions

/-- Reading expressions and operands is steady, however deeply they are nested. -/
theorem steady_expression_and_unaryOperand (excerpt : Excerpt) (room : Nat) :
    excerpt.Steady (Expr.renumber excerpt.number) (expression room) ∧
      excerpt.Steady (Expr.renumber excerpt.number) (unaryOperand room) := by
  induction room with
  | zero => exact ⟨fun _ => tracks_fail _, fun _ => tracks_fail _⟩
  | succ room inductionHypothesis =>
    obtain ⟨inside, operands⟩ := inductionHypothesis
    have unary := steady_unaryRule operands inside
    exact ⟨steady_assignmentRule unary inside, unary⟩

section Statements

variable
  {excerpt : Excerpt}
  {valid : Prop}
  {expression : Parse Expr}
  {statement : Parse Stmt}
  {block : Parse (List Stmt)}

/-- Whether there is an expression may depend on the token behind the excerpt. -/
theorem tracks_optionalUnless
    (inside : excerpt.Steady (Expr.renumber excerpt.number) expression)
    (kind : Token.Kind) :
    Tracks excerpt false never valid (Agrees (Expr.optionRenumber excerpt.number))
      (optionalUnless kind expression) (optionalUnless kind expression) := by
  refine (tracks_check kind).choose (fun isClosed => nomatch isClosed) ?_ ?_
  · exact tracks_pure fun _ => rfl
  · refine inside.tracks.within.anyway.keeping fun value own => tracks_pure ?_
    rintro ⟨-, rfl⟩
    rfl

/-- Reading a variable declaration is steady. -/
theorem steady_declareRule
    (inside : excerpt.Steady (Expr.renumber excerpt.number) expression) :
    excerpt.Steady (Stmt.renumber excerpt.number) (declareRule expression) := by
  have ends : ∀ {valid : Prop} (name ownName : Token) (initializer own : Option Expr),
      (valid -> name = ownName ∧ Agrees (Expr.optionRenumber excerpt.number) initializer own) ->
      Tracks excerpt true always valid (Agrees (Stmt.renumber excerpt.number))
        (do
          let _ ← expect (.symbol .semicolon) "';' after variable declaration"
          return .declare name initializer)
        (do
          let _ ← expect (.symbol .semicolon) "';' after variable declaration"
          return .declare ownName own) := by
    intro valid name ownName initializer own agree
    refine (tracks_expect _ _).spending fun _ _ => tracks_pure fun isValid => ?_
    obtain ⟨rfl, rfl⟩ := agree isValid.1
    rfl
  intro valid
  refine (tracks_expect _ _).keeping fun name ownName => ?_
  refine tracks_acceptIf (ends name ownName none none fun isValid => ⟨isValid.2, rfl⟩) fun _ => ?_
  refine inside.tracks.keeping fun value own => (ends name ownName _ _ fun isValid => ?_).anyway
  exact ⟨isValid.1.2, congrArg some isValid.2⟩

/-- Reading an expression statement is steady. -/
theorem steady_expressionStatementRule
    (inside : excerpt.Steady (Expr.renumber excerpt.number) expression) :
    excerpt.Steady (Stmt.renumber excerpt.number) (expressionStatementRule expression) := by
  intro valid
  refine inside.tracks.keeping fun value own => ?_
  refine (tracks_expect _ _).spending fun _ _ => tracks_pure ?_
  rintro ⟨⟨-, rfl⟩, -⟩
  rfl

/-- Reading a print statement is steady. -/
theorem steady_printRule
    (inside : excerpt.Steady (Expr.renumber excerpt.number) expression) :
    excerpt.Steady (Stmt.renumber excerpt.number) (printRule expression) := by
  intro valid
  refine inside.tracks.keeping fun value own => ?_
  refine (tracks_expect _ _).spending fun _ _ => tracks_pure ?_
  rintro ⟨⟨-, rfl⟩, -⟩
  rfl

/-- Reading a return statement is steady. -/
theorem steady_returnRule
    (inside : excerpt.Steady (Expr.renumber excerpt.number) expression)
    (keyword : Token) :
    excerpt.Steady (Stmt.renumber excerpt.number) (returnRule keyword expression) := by
  intro valid
  refine (tracks_optionalUnless inside _).peeking fun value own => ?_
  refine (tracks_expect _ _).spending fun _ _ => tracks_pure ?_
  rintro ⟨⟨-, rfl⟩, -⟩
  rfl

/-- Reading a conditional is steady. -/
theorem steady_conditionalRule
    (inside : excerpt.Steady (Expr.renumber excerpt.number) expression)
    (branches : excerpt.Steady (Stmt.renumber excerpt.number) statement) :
    excerpt.Steady (Stmt.renumber excerpt.number) (conditionalRule expression statement) := by
  intro valid
  refine (tracks_expect _ _).keeping fun _ _ => ?_
  refine inside.tracks.keeping fun condition ownCondition => ?_
  refine (tracks_expect _ _).keeping fun _ _ => ?_
  refine branches.tracks.spending fun thenBranch ownThen => ?_
  refine tracks_acceptIf (tracks_pure ?_) fun _ => ?_
  · rintro ⟨⟨⟨-, rfl⟩, -⟩, rfl⟩
    rfl
  · refine branches.tracks.keeping fun elseBranch ownElse => tracks_pure ?_
    rintro ⟨⟨⟨⟨-, rfl⟩, -⟩, rfl⟩, rfl⟩
    rfl

/-- Reading a loop is steady. -/
theorem steady_whileRule
    (inside : excerpt.Steady (Expr.renumber excerpt.number) expression)
    (bodies : excerpt.Steady (Stmt.renumber excerpt.number) statement) :
    excerpt.Steady (Stmt.renumber excerpt.number) (whileRule expression statement) := by
  intro valid
  refine (tracks_expect _ _).keeping fun _ _ => ?_
  refine inside.tracks.keeping fun condition ownCondition => ?_
  refine (tracks_expect _ _).keeping fun _ _ => ?_
  refine bodies.tracks.spending fun body ownBody => tracks_pure ?_
  rintro ⟨⟨⟨-, rfl⟩, -⟩, rfl⟩
  rfl

/-- A loop that is put together from renumbered parts is the renumbered loop. -/
theorem renumber_forLoop
    (number : Nat -> Nat)
    (initializer : Option Stmt)
    (condition increment : Option Expr)
    (body : Stmt) :
    (forLoop initializer condition increment body).renumber number =
      forLoop (Stmt.optionRenumber number initializer) (Expr.optionRenumber number condition)
        (Expr.optionRenumber number increment) (body.renumber number) := by
  cases initializer <;> cases condition <;> cases increment <;> rfl

/-- Reading what begins a loop with a header is steady. -/
theorem steady_forInitializerRule
    (inside : excerpt.Steady (Expr.renumber excerpt.number) expression) :
    excerpt.Steady (Stmt.optionRenumber excerpt.number) (forInitializerRule expression) := by
  intro valid
  refine tracks_acceptIf (tracks_acceptIf ?_ fun _ => ?_) fun _ => tracks_pure fun _ => rfl
  · refine (steady_expressionStatementRule inside).tracks.spending fun first own => tracks_pure ?_
    rintro ⟨-, rfl⟩
    rfl
  · refine (steady_declareRule inside).tracks.anyway.keeping fun first own => tracks_pure ?_
    rintro ⟨-, rfl⟩
    rfl

/-- Reading a loop with a header is steady. -/
theorem steady_forRule
    (inside : excerpt.Steady (Expr.renumber excerpt.number) expression)
    (bodies : excerpt.Steady (Stmt.renumber excerpt.number) statement) :
    excerpt.Steady (Stmt.renumber excerpt.number) (forRule expression statement) := by
  intro valid
  refine (tracks_expect _ _).keeping fun _ _ => ?_
  refine (steady_forInitializerRule inside).tracks.keeping fun initializer ownInitializer => ?_
  refine (tracks_optionalUnless inside _).peeking fun condition ownCondition => ?_
  refine (tracks_expect _ _).keeping fun _ _ => ?_
  refine (tracks_optionalUnless inside _).peeking fun increment ownIncrement => ?_
  refine (tracks_expect _ _).keeping fun _ _ => ?_
  refine bodies.tracks.spending fun body ownBody => tracks_pure ?_
  rintro ⟨⟨⟨⟨⟨⟨⟨-, -⟩, rfl⟩, rfl⟩, -⟩, rfl⟩, -⟩, rfl⟩
  exact (renumber_forLoop _ _ _ _ _).symm

/-- Reading a function is steady. -/
theorem steady_functionRule
    (bodies : excerpt.Steady (Stmt.listRenumber excerpt.number) block)
    (what : String) :
    excerpt.Steady (FunctionDecl.renumber excerpt.number) (functionRule what block) := by
  intro valid
  refine (tracks_expect _ _).keeping fun name ownName => ?_
  refine (tracks_expect _ _).keeping fun _ _ => ?_
  refine (steady_parenthesized (steady_expect excerpt _ _) _).tracks.keeping ?_
  rintro ⟨parameters, closing⟩ ⟨ownParameters, ownClosing⟩
  refine (tracks_expect _ _).keeping fun _ _ => ?_
  refine bodies.tracks.spending fun body ownBody => tracks_pure ?_
  rintro ⟨⟨⟨⟨⟨-, rfl⟩, -⟩, isListed⟩, -⟩, rfl⟩
  cases isListed
  rw [List.map_id]
  rfl

/-- Whether a sequence that ends with a brace goes on may depend on the token
behind the excerpt. -/
theorem tracks_unlessClosed
    {β : Type}
    {related : β -> β -> Prop}
    {spends : β -> Bool}
    {ends more ownEnds ownMore : Parse β}
    (kind : Token.Kind)
    (tracksEnd : Tracks excerpt false spends valid related ends ownEnds)
    (tracksMore : Tracks excerpt false spends valid related more ownMore) :
    Tracks excerpt false spends valid related
      (do if (← check kind) || (← atEnd) then ends else more)
      (do if (← check kind) || (← atEnd) then ownEnds else ownMore) := by
  refine (tracks_check kind).choose (fun isClosed => nomatch isClosed) ?_ ?_
  · exact tracks_atEnd.choose (fun isClosed => nomatch isClosed) tracksEnd tracksEnd
  · exact tracks_atEnd.choose (fun isClosed => nomatch isClosed) tracksEnd tracksMore

theorem unlessClosed_of_end
    {β : Type}
    {ends more : Parse β}
    {cursor : Cursor}
    (isEmpty : cursor.rest = [])
    (kind : Token.Kind) :
    (do if (← check kind) || (← atEnd) then ends else more : Parse β) cursor = ends cursor := by
  refine (bind_of_ok rfl _).trans ((bind_of_ok rfl _).trans ?_)
  rw [isEmpty]
  rfl

/-- The methods of a class are found in both runs as long as there is more of the excerpt
to read. -/
theorem tracks_methodsRule
    (bodies : excerpt.Steady (Stmt.listRenumber excerpt.number) block) :
    Tracks excerpt false never valid (Agrees (FunctionDecl.listRenumber excerpt.number))
      (methodsRule block) (methodsRule block) := by
  have pushes : ∀ methods own : Array FunctionDecl, Tracks excerpt false Option.isSome
      (Agrees (Array.map (FunctionDecl.renumber excerpt.number)) methods own)
      (Option.Rel (Agrees (Array.map (FunctionDecl.renumber excerpt.number))))
      (do return some (methods.push (← functionRule "method" block)))
      (do return some (own.push (← functionRule "method" block))) := by
    intro methods own
    have found : Tracks excerpt true always
        (Agrees (Array.map (FunctionDecl.renumber excerpt.number)) methods own)
        (Option.Rel (Agrees (Array.map (FunctionDecl.renumber excerpt.number))))
        (do return some (methods.push (← functionRule "method" block)))
        (do return some (own.push (← functionRule "method" block))) := by
      refine (steady_functionRule bodies "method").tracks.spending fun method ownMethod =>
        tracks_pure ?_
      rintro ⟨rfl, rfl⟩
      exact .some Array.map_push.symm
    exact found.within.notably
  have longer := tracks_extend
    (fun methods own => tracks_unlessClosed (.symbol .rightBrace) tracks_none (pushes methods own))
    (fun methods cursor isEmpty => unlessClosed_of_end isEmpty _)
  refine ((longer #[] #[]).given fun _ => Array.map_empty.symm).keeping fun methods own =>
    tracks_pure ?_
  rintro ⟨-, rfl⟩
  rw [Agrees, Array.toList_map, FunctionDecl.listRenumber_eq_map]

/-- A superclass is found in both runs or in neither. -/
theorem tracks_superclassRule :
    Tracks excerpt true never valid (Agrees (Option.map (Reference.renumber excerpt.number)))
      superclassRule superclassRule := by
  refine tracks_acceptIf (tracks_pure fun _ => rfl) fun _ => ?_
  refine (tracks_expect _ _).keeping fun name ownName => ?_
  refine (tracks_freshReference And.right).keeping fun reference own => tracks_pure ?_
  rintro ⟨-, rfl⟩
  rfl

/-- Reading a class is steady. -/
theorem steady_classRule
    (bodies : excerpt.Steady (Stmt.listRenumber excerpt.number) block) :
    excerpt.Steady (Stmt.renumber excerpt.number) (classRule block) := by
  intro valid
  refine (tracks_expect _ _).keeping fun name ownName => ?_
  refine tracks_superclassRule.keeping fun superclass ownSuperclass => ?_
  refine (tracks_expect _ _).keeping fun _ _ => ?_
  refine (tracks_methodsRule bodies).peeking fun methods ownMethods => ?_
  refine (tracks_expect _ _).spending fun _ _ => tracks_pure ?_
  rintro ⟨⟨⟨⟨⟨-, rfl⟩, rfl⟩, -⟩, rfl⟩, -⟩
  rfl

/-- Reading a statement is steady. -/
theorem steady_statementRule
    (inside : excerpt.Steady (Expr.renumber excerpt.number) expression)
    (parts : excerpt.Steady (Stmt.renumber excerpt.number) statement)
    (bodies : excerpt.Steady (Stmt.listRenumber excerpt.number) block) :
    excerpt.Steady (Stmt.renumber excerpt.number) (statementRule expression statement block) := by
  intro valid
  refine tracks_acceptIf (steady_expressionStatementRule inside).tracks fun token => ?_
  dsimp only
  split
  · exact (steady_forRule inside parts).tracks.anyway
  · exact (steady_conditionalRule inside parts).tracks.anyway
  · exact (steady_printRule inside).tracks.anyway
  · exact (steady_returnRule inside token).tracks.anyway
  · exact (steady_whileRule inside parts).tracks.anyway
  · refine bodies.tracks.anyway.keeping fun body own => tracks_pure ?_
    rintro ⟨-, rfl⟩
    rfl

/-- A declaration is read, or skipped, in the excerpt as in the whole.  If there
is a token left it reads at least one, and if it is skipped there is an error. -/
structure Excerpt.Recovers (excerpt : Excerpt) (declaration : Parse (Option Stmt)) : Prop where
  tracks : ∀ valid, Tracks excerpt true never valid
    (Option.Rel (Agrees (Stmt.renumber excerpt.number))) declaration declaration
  shorter : ∀ {cursor result after}, cursor.rest ≠ [] ->
    declaration cursor = .ok result after -> after.rest.length < cursor.rest.length
  skips : ∀ {cursor after}, declaration cursor = .ok none after ->
    after.errors.toList ≠ [] ∧
      ∃ failed, failed <:+ cursor.rest ∧ after.rest = synchronize failed

/-- A rule that finds the same in the excerpt is taken up behind its errors. -/
theorem recovers_recovering
    {rule : Parse Stmt}
    (steady : excerpt.Steady (Stmt.renumber excerpt.number) rule) :
    excerpt.Recovers (recovering rule) :=
  ⟨fun valid => tracks_recovering (steady valid), recovering_shorter (steady True),
    recovering_none (steady True)⟩

/-- A declaration that cannot be read is skipped in both runs alike. -/
theorem recovers_declarationRule
    (inside : excerpt.Steady (Expr.renumber excerpt.number) expression)
    (parts : excerpt.Steady (Stmt.renumber excerpt.number) statement)
    (bodies : excerpt.Steady (Stmt.listRenumber excerpt.number) block) :
    excerpt.Recovers (declarationRule expression statement block) := by
  refine recovers_recovering fun valid => ?_
  refine tracks_acceptIf parts.tracks fun token => ?_
  dsimp only
  split
  · exact (steady_classRule bodies).tracks.anyway
  · refine (steady_functionRule bodies _).tracks.anyway.keeping fun function own => tracks_pure ?_
    rintro ⟨-, rfl⟩
    rfl
  · exact (steady_declareRule inside).tracks.anyway

/-- One step of reading declarations. -/
def nextDeclaration
    (more : Parse Bool)
    (declaration : Parse (Option Stmt))
    (statements : Array Stmt) : Parse (Option (Array Stmt)) := do
  if ← more then
    match ← declaration with
    | some statement => return some (statements.push statement)
    | none => return some statements
  else
    return none

/-- Declarations are read in step if the test for more of them is. -/
theorem tracks_declarationsWhile
    {more : Parse Bool}
    {declaration : Parse (Option Stmt)}
    (tests : ∀ valid, Tracks excerpt false never valid (· = ·) more more)
    (looks : ∀ cursor, ∃ answer, more cursor = .ok answer cursor ∧
      (answer = true -> cursor.rest ≠ []))
    (recovers : excerpt.Recovers declaration) :
    Tracks excerpt false never valid (Agrees (Stmt.listRenumber excerpt.number))
      (declarationsWhile more declaration) (declarationsWhile more declaration) := by
  have steps : ∀ statements own : Array Stmt, Tracks excerpt false Option.isSome
      (Agrees (Array.map (Stmt.renumber excerpt.number)) statements own)
      (Option.Rel (Agrees (Array.map (Stmt.renumber excerpt.number))))
      (nextDeclaration more declaration statements) (nextDeclaration more declaration own) := by
    intro statements own
    refine Tracks.shortening ((tests _).choose (fun isClosed => nomatch isClosed) ?_
      tracks_none.anyway) ?_
    · refine (recovers.tracks _).within.keeping fun found ownFound => ?_
      cases found <;> cases ownFound
      · exact tracks_pure fun isValid => .some isValid.1
      · exact tracks_pure fun isValid => nomatch isValid.2
      · exact tracks_pure fun isValid => nomatch isValid.2
      · refine tracks_pure ?_
        rintro ⟨rfl, isFound⟩
        cases isFound with
        | some agrees =>
          refine .some ?_
          rw [Agrees, Array.map_push, agrees]
    · intro cursor result after ended isMore
      obtain ⟨answer, looked, nonempty⟩ := looks cursor
      rw [nextDeclaration, bind_of_ok looked] at ended
      cases answer with
      | false =>
        cases ended
        exact nomatch isMore
      | true =>
        cases declared : declaration cursor with
        | error error middle =>
          cases (bind_of_error declared _).symm.trans ended
        | ok found middle =>
          have shorter := recovers.shorter (nonempty rfl) declared
          have ended := (bind_of_ok declared _).symm.trans ended
          cases found <;> cases ended <;> exact shorter
  have idle : ∀ statements cursor, cursor.rest = [] ->
      nextDeclaration more declaration statements cursor = .ok none cursor := by
    intro statements cursor isEmpty
    obtain ⟨answer, looked, nonempty⟩ := looks cursor
    rw [nextDeclaration, bind_of_ok looked]
    cases answer with
    | false => rfl
    | true => exact absurd isEmpty (nonempty rfl)
  refine ((tracks_extend steps idle #[] #[]).given fun _ => Array.map_empty.symm).keeping
    fun statements own => tracks_pure ?_
  rintro ⟨-, rfl⟩
  rw [Agrees, Array.toList_map, Stmt.listRenumber_eq_map]

/-- Reading a block is steady, even if declarations in it are skipped. -/
theorem steady_blockRule
    {declaration : Parse (Option Stmt)}
    (recovers : excerpt.Recovers declaration) :
    excerpt.Steady (Stmt.listRenumber excerpt.number) (blockRule declaration) := by
  intro valid
  refine (tracks_declarationsWhile ?_ ?_ recovers).peeking fun statements own => ?_
  · intro valid
    refine (tracks_check _).loosely fun closes ownCloses => ?_
    refine tracks_atEnd.loosely fun ends ownEnds => tracks_pure ?_
    rintro ⟨⟨-, rfl⟩, rfl⟩
    rfl
  · intro cursor
    refine ⟨_, rfl, fun isMore isEmpty => ?_⟩
    rw [isEmpty] at isMore
    exact nomatch isMore
  · refine (tracks_expect _ _).spending fun _ _ => tracks_pure ?_
    rintro ⟨⟨-, rfl⟩, -⟩
    rfl

end Statements

/-- Reading statements and blocks is steady, however deeply they are nested. -/
theorem steady_statement_and_block (excerpt : Excerpt) (room : Nat) :
    excerpt.Steady (Stmt.renumber excerpt.number) (statement room) ∧
      excerpt.Steady (Stmt.listRenumber excerpt.number) (block room) := by
  induction room with
  | zero => exact ⟨fun _ => tracks_fail _, fun _ => tracks_fail _⟩
  | succ room inductionHypothesis =>
    obtain ⟨parts, bodies⟩ := inductionHypothesis
    have inside := (steady_expression_and_unaryOperand excerpt room).1
    exact ⟨steady_statementRule inside parts bodies,
      steady_blockRule (recovers_declarationRule inside parts bodies)⟩

/-- A declaration, however deep it may nest. -/
theorem recovers_declaration (excerpt : Excerpt) (room : Nat) :
    excerpt.Recovers (declarationRule (expression room) (statement room) (block room)) :=
  recovers_declarationRule (steady_expression_and_unaryOperand excerpt room).1
    (steady_statement_and_block excerpt room).1 (steady_statement_and_block excerpt room).2

/-- The declarations of an excerpt are read in the whole as they are on their own. -/
theorem tracks_program (excerpt : Excerpt) :
    Tracks excerpt false never True (Agrees (Stmt.listRenumber excerpt.number)) program
      program := by
  refine tracks_declarationsWhile ?_ ?_ (recovers_declaration excerpt maxNesting)
  · intro valid
    refine tracks_atEnd.loosely fun ends ownEnds => tracks_pure ?_
    rintro ⟨-, rfl⟩
    rfl
  · intro cursor
    refine ⟨_, rfl, fun isMore isEmpty => ?_⟩
    rw [isEmpty] at isMore
    exact nomatch isMore

end Parse

/-- Parsing does not depend on where the numbers of references begin. -/
theorem parseTokens_shift
    (tokens : List Token)
    (endToken : Token)
    (firstId shift : Nat) :
    parseTokens tokens endToken (firstId + shift) =
      ⟨Stmt.listRenumber (· + shift) (parseTokens tokens endToken firstId).result,
        (parseTokens tokens endToken firstId).nextId + shift,
        (parseTokens tokens endToken firstId).errors⟩ := by
  let excerpt : Parse.Excerpt := ⟨[], endToken, endToken, shift, [], [], fun _ => rfl⟩
  have cut : excerpt.Cut ⟨tokens, endToken, firstId + shift, #[]⟩
      ⟨tokens, endToken, firstId, #[]⟩ :=
    ⟨(List.append_nil tokens).symm, rfl, rfl, rfl, [], rfl, rfl⟩
  rw [parseTokens, parseTokens]
  cases ended : Parse.program ⟨tokens, endToken, firstId + shift, #[]⟩ with
  | ok statements after =>
    obtain ⟨own, ownAfter, ownEnded, agrees, cutAfter⟩ := (Parse.tracks_program excerpt).succeeds
      trivial _ _ _ _ _ cut ended (List.append_nil after.rest).symm (.inr (.inr rfl))
    obtain ⟨found, wholeErrors, ownErrors⟩ := cutAfter.errors
    rw [ownEnded]
    dsimp only
    rw [agrees, cutAfter.nextId, wholeErrors, ownErrors]
    rfl
  | error error after =>
    obtain ⟨ownAfter, ownEnded, cutAfter⟩ := (Parse.tracks_program excerpt).fails
      trivial _ _ _ _ _ cut ended (List.append_nil after.rest).symm (.inr rfl)
    obtain ⟨found, wholeErrors, ownErrors⟩ := (cutAfter.noteError error).errors
    rw [ownEnded]
    dsimp only at wholeErrors ownErrors ⊢
    rw [cutAfter.nextId, wholeErrors, ownErrors, Stmt.listRenumber]

end TreeWalk
