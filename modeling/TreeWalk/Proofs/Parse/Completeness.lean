import TreeWalk.Proofs.Parse.Soundness

/-!
# What is grammatical is read

The other direction: a reader reads every phrase of its category, and finds the
tree that the grammar gives.  Where a phrase ends depends on what follows it, so
this holds only before tokens that cannot continue the phrase.
-/

namespace TreeWalk
namespace Parse

open Grammar

/-- A reader reads every phrase of a category that no excluded token follows. -/
def Accepts
    {α : Type}
    (reader : Parse α)
    (phrase : Phrase α)
    (excluded : Token.Kind -> Bool) : Prop :=
  ∀ ⦃first tokens result next⦄, phrase first tokens result next ->
    ∀ rest endToken errors, nextIs excluded rest = false ->
      Reads reader ⟨tokens ++ rest, endToken, first, errors⟩ result
        ⟨rest, endToken, next, errors⟩

variable {α β : Type}

/-- A result is found without reading anything. -/
theorem reads_pure (result : α) (cursor : Cursor) :
    Reads (pure result : Parse α) cursor result cursor :=
  reads_pure_iff.mpr ⟨rfl, rfl⟩

/-- An admitted token is read. -/
theorem reads_acceptIf
    {admitted : Token.Kind -> Bool}
    {token : Token}
    (admits : admitted token.kind = true)
    (rest : List Token)
    (endToken : Token)
    (first : Nat)
    (errors : Array SyntaxError) :
    Reads (acceptIf admitted) ⟨token :: rest, endToken, first, errors⟩ (some token)
      ⟨rest, endToken, first, errors⟩ :=
  reads_acceptIf_some_iff.mpr ⟨rest, rfl, admits, rfl⟩

/-- A token of the kind that is looked for is read. -/
theorem reads_accept
    {kind : Token.Kind}
    {token : Token}
    (hasKind : token.kind = kind)
    (rest : List Token)
    (endToken : Token)
    (first : Nat)
    (errors : Array SyntaxError) :
    Reads (accept kind) ⟨token :: rest, endToken, first, errors⟩ (some token)
      ⟨rest, endToken, first, errors⟩ :=
  reads_accept_some_iff.mpr ⟨rest, rfl, hasKind, rfl⟩

/-- A token of the expected kind is read. -/
theorem reads_expect
    {kind : Token.Kind}
    {what : String}
    {token : Token}
    (hasKind : token.kind = kind)
    (rest : List Token)
    (endToken : Token)
    (first : Nat)
    (errors : Array SyntaxError) :
    Reads (expect kind what) ⟨token :: rest, endToken, first, errors⟩ token
      ⟨rest, endToken, first, errors⟩ :=
  reads_expect_iff.mpr ⟨rest, rfl, hasKind, rfl⟩

/-- A token that is not admitted stays where it is. -/
theorem reads_acceptIf_none
    {admitted : Token.Kind -> Bool}
    {cursor : Cursor}
    (absent : nextIs admitted cursor.rest = false) :
    Reads (acceptIf admitted) cursor none cursor :=
  reads_acceptIf_none_iff.mpr ⟨absent, rfl⟩

/-- A reference is given the next number. -/
theorem reads_freshReference
    (name endToken : Token)
    (rest : List Token)
    (first : Nat)
    (errors : Array SyntaxError) :
    Reads (freshReference name) ⟨rest, endToken, first, errors⟩ ⟨first, name⟩
      ⟨rest, endToken, first + 1, errors⟩ :=
  reads_freshReference_iff.mpr ⟨rfl, rfl⟩

/-- Looking at the next token reads nothing. -/
theorem reads_check
    {kind : Token.Kind}
    {cursor : Cursor}
    {found : Bool}
    (isNext : nextIs (· == kind) cursor.rest = found) :
    Reads (check kind) cursor found cursor :=
  reads_check_iff.mpr ⟨isNext.symm, rfl⟩

theorem reads_atEnd
    {cursor : Cursor}
    {found : Bool}
    (isEnd : cursor.rest.isEmpty = found) :
    Reads atEnd cursor found cursor :=
  reads_atEnd_iff.mpr ⟨isEnd.symm, rfl⟩

/-- Before the end, there is more to read. -/
theorem reads_atEnd_false
    {cursor : Cursor}
    (notEmpty : cursor.rest ≠ []) :
    Reads atEnd cursor false cursor :=
  reads_atEnd (by simp [notEmpty])

/-- A statement that can be read is given as it is. -/
theorem reads_recovering
    {rule : Parse Stmt}
    {before after : Cursor}
    {statement : Stmt}
    (reads : Reads rule before statement after) :
    Reads (recovering rule) before (some statement) after := by
  obtain ⟨outcome, same⟩ := reads
  refine ⟨?_, same⟩
  rw [recovering, outcome]

/-- A name is read whatever follows it. -/
theorem identifier_accepted (what : String) :
    Accepts (expect .identifier what) (Terminal .identifier) (fun _ => false) := by
  rintro first tokens result next ⟨hasKind⟩ rest endToken errors -
  exact reads_expect hasKind rest endToken first errors

/-- No token is of no kind. -/
theorem nextIs_nothing (tokens : List Token) : nextIs (fun _ => false) tokens = false := by
  cases tokens <;> rfl

/-- The next token is of none of two sorts if it is of neither. -/
theorem nextIs_or_eq_false_iff
    {one other : Token.Kind -> Bool}
    {tokens : List Token} :
    nextIs (fun kind => one kind || other kind) tokens = false ↔
      nextIs one tokens = false ∧ nextIs other tokens = false := by
  cases tokens <;> simp

/-- Where no token of a class follows, none of a given kind in it does. -/
theorem nextIs_kind_eq_false
    {admitted : Token.Kind -> Bool}
    {kind : Token.Kind}
    {tokens : List Token}
    (member : admitted kind = true)
    (absent : nextIs admitted tokens = false) :
    nextIs (· == kind) tokens = false := by
  cases tokens with
  | nil => rfl
  | cons token others =>
    rw [nextIs_cons] at absent ⊢
    refine beq_false_of_ne fun same => ?_
    rw [same, member] at absent
    cases absent

/-- A kind that a class does not admit differs from all that it does. -/
theorem kind_apart
    {admitted : Token.Kind -> Bool}
    {kind : Token.Kind}
    (never : admitted kind = false)
    (other : Token.Kind)
    (member : admitted other = true) :
    (other == kind) = false := by
  refine beq_false_of_ne fun same => ?_
  rw [same, never] at member
  cases member

/-- Items that are read one after the other, if each of them is read before the
first token of another one. -/
theorem repeated_accepts
    {step : Array α -> Parse (Option (Array α))}
    {phrase : Phrase α}
    {admitted excluded : Token.Kind -> Bool}
    (begins : Begins admitted phrase)
    (apart : ∀ kind, admitted kind = true -> excluded kind = false)
    (steps : ∀ ⦃first tokens one next⦄, phrase first tokens one next ->
      ∀ found rest endToken errors, nextIs excluded rest = false ->
        Reads (step found) ⟨tokens ++ rest, endToken, first, errors⟩ (some (found.push one))
          ⟨rest, endToken, next, errors⟩)
    {first next : Nat}
    {tokens : List Token}
    {items : List α}
    (derived : Repeated phrase first tokens items next)
    (rest : List Token)
    (endToken : Token)
    (errors : Array SyntaxError)
    (follows : nextIs excluded rest = false)
    (finished : ∀ found, Reads (step found) ⟨rest, endToken, next, errors⟩ none
      ⟨rest, endToken, next, errors⟩) :
    Reads
      (do
        let found ← extend step #[]
        return found.toList)
      ⟨tokens ++ rest, endToken, first, errors⟩ items ⟨rest, endToken, next, errors⟩ := by
  have taken : ∃ found : Array α, found.toList = items ∧
      Steps step #[] ⟨tokens ++ rest, endToken, first, errors⟩ found
        ⟨rest, endToken, next, errors⟩ := by
    clear finished
    induction derived generalizing rest with
    | none => exact ⟨#[], rfl, .none⟩
    | @more _ _ _ _ lastTokens _ last _ one inductionHypothesis =>
      obtain ⟨found, rfl, taken⟩ := inductionHypothesis (lastTokens ++ rest)
        (begins.nextIs_append apart one rest)
      refine ⟨found.push last, by simp, ?_⟩
      rw [List.append_assoc]
      refine .more taken (steps one found rest endToken errors follows) ?_
      have positive := List.length_pos_iff.mpr (begins.ne_nil one)
      simp only [List.length_append]
      omega
  obtain ⟨found, rfl, taken⟩ := taken
  exact (reads_extend_of_steps taken (finished found)).bind (reads_pure _ _)

/-- A list with commas is read to its end if no comma follows and it is not too long. -/
theorem commaSeparated_accepts
    {what : String}
    {item : Parse α}
    {phrase : Phrase α}
    {excluded : Token.Kind -> Bool}
    (items : Accepts item phrase excluded)
    (comma : excluded (.symbol .comma) = false)
    {first next : Nat}
    {tokens : List Token}
    {result : List α}
    (derived : Separated phrase first tokens result next)
    (few : result.length ≤ maxArity)
    (rest : List Token)
    (endToken : Token)
    (errors : Array SyntaxError)
    (noComma : nextIs (· == .symbol .comma) rest = false)
    (follows : nextIs excluded rest = false) :
    Reads (commaSeparated what item) ⟨tokens ++ rest, endToken, first, errors⟩ result
      ⟨rest, endToken, next, errors⟩ := by
  -- The loop takes the items behind the first one, each with a comma in front.
  have steps : ∃ start middle found,
      Reads item ⟨tokens ++ rest, endToken, first, errors⟩ start middle ∧
        found.toList = result ∧
        Steps (nextItem what item) #[start] middle found ⟨rest, endToken, next, errors⟩ := by
    clear noComma
    induction derived generalizing rest with
    | single only =>
      exact ⟨_, _, #[_], items only rest endToken errors follows, rfl, .none⟩
    | @more _ middle _ tokens lastTokens commaToken before last derived isComma one
        inductionHypothesis =>
      rw [List.length_append, List.length_singleton] at few
      obtain ⟨start, cursor, found, reads, rfl, steps⟩ := inductionHypothesis (by omega)
        (commaToken :: (lastTokens ++ rest)) (by rw [nextIs_cons, isComma]; exact comma)
      refine ⟨start, cursor, found.push last, by simpa using reads, by simp, .more steps ?_ ?_⟩
      · refine (reads_accept isComma _ _ _ _).bind ?_
        have notFull : ¬ maxArity ≤ found.size := by
          rw [Array.length_toList] at few
          omega
        simp only [notFull, if_false]
        exact (items one rest endToken errors follows).bind (reads_pure _ _)
      · simp only [List.length_cons, List.length_append]
        omega
  obtain ⟨start, middle, found, reads, rfl, steps⟩ := steps
  refine reads.bind ((reads_extend_of_steps steps ?_).bind (reads_pure _ _))
  exact (reads_acceptIf_none noComma).bind (reads_pure _ _)

/-- A list in parentheses is read to its closing parenthesis. -/
theorem parenthesized_accepts
    {what : String}
    {item : Parse α}
    {phrase : Phrase α}
    {admitted excluded : Token.Kind -> Bool}
    (items : Accepts item phrase excluded)
    (begins : Begins admitted phrase)
    (apart : ∀ kind, admitted kind = true -> (kind == .symbol .rightParen) = false)
    (comma : excluded (.symbol .comma) = false)
    (paren : excluded (.symbol .rightParen) = false) :
    Accepts (parenthesized what item) (Listed phrase) (fun _ => false) := by
  intro first tokens result next derived rest endToken errors _
  cases derived with
  | @none _ closing isClosing =>
    have isNext : nextIs (· == .symbol .rightParen) ([closing] ++ rest) = true := by
      simp [isClosing]
    refine (reads_check isNext).bind ?_
    exact (reads_pure [] _).bind ((reads_expect isClosing _ _ _ _).bind (reads_pure _ _))
  | @some _ _ inner found closing separated few isClosing =>
    rw [List.append_assoc, List.singleton_append]
    refine (reads_check ((separated_begins begins).nextIs_append apart separated _)).bind ?_
    refine (commaSeparated_accepts items comma separated few (closing :: rest) endToken errors
      ?_ ?_).bind ?_
    · rw [nextIs_cons, isClosing]
      rfl
    · rw [nextIs_cons, isClosing]
      exact paren
    · exact (reads_expect isClosing _ _ _ _).bind (reads_pure _ _)

/-! ## Expressions -/

/-- A chain of operators is read to its end if none of them follows. -/
theorem leftAssociative_accepts
    {isOperator excluded : Token.Kind -> Bool}
    {operators : List Token.Kind}
    {combine : Expr -> Token -> Expr -> Expr}
    {operand : Parse Expr}
    {phrase : Phrase Expr}
    (listed : ∀ kind ∈ operators, isOperator kind = true)
    (apart : ∀ kind ∈ operators, excluded kind = false)
    (operands : Accepts operand phrase excluded) :
    Accepts (leftAssociative isOperator combine operand)
      (LeftAssociative operators combine phrase)
      (fun kind => isOperator kind || excluded kind) := by
  intro first tokens result next derived rest endToken errors follows
  obtain ⟨noOperator, notExcluded⟩ := nextIs_or_eq_false_iff.mp follows
  have steps : ∃ start middle,
      Reads operand ⟨tokens ++ rest, endToken, first, errors⟩ start middle ∧
        Steps (nextOperand isOperator combine operand) start middle result
          ⟨rest, endToken, next, errors⟩ := by
    clear follows noOperator
    induction derived generalizing rest with
    | operand only => exact ⟨_, _, operands only rest endToken errors notExcluded, .none⟩
    | @combined _ middle _ leftTokens rightTokens operator left right before isOperator after
        inductionHypothesis =>
      obtain ⟨start, cursor, reads, steps⟩ :=
        inductionHypothesis (operator :: (rightTokens ++ rest)) (apart _ isOperator)
      refine ⟨start, cursor, by simpa using reads, .more steps ?_ ?_⟩
      · refine (reads_acceptIf (listed _ isOperator) _ _ _ _).bind ?_
        exact (operands after rest endToken errors notExcluded).bind (reads_pure _ _)
      · simp only [List.length_cons, List.length_append]
        omega
  obtain ⟨start, middle, reads, steps⟩ := steps
  refine reads.bind (reads_extend_of_steps steps ?_)
  exact (reads_acceptIf_none noOperator).bind (reads_pure _ _)

/-- Tokens that continue a call. -/
def continuesCall : Token.Kind -> Bool
  | .symbol .leftParen => true
  | .symbol .dot => true
  | _ => false

/-- Tokens that continue an expression made of operators. -/
def continuesOperators (kind : Token.Kind) : Bool :=
  kind == .keyword .orWord || (kind == .keyword .andWord || (isEqualityOperator kind ||
    (isComparisonOperator kind || (isTermOperator kind ||
      (isFactorOperator kind || continuesCall kind)))))

/-- Tokens that continue an expression. -/
def continuesExpression (kind : Token.Kind) : Bool :=
  kind == .symbol .equal || continuesOperators kind

/-- Binary and logical expressions are read, each rank within the next one. -/
theorem operatorRule_accepts
    {unary : Parse Expr}
    {phrase : Phrase Expr}
    (operands : Accepts unary phrase continuesCall) :
    Accepts (operatorRule unary) (LogicOr phrase) continuesOperators := by
  refine leftAssociative_accepts (by simp) (by simp; decide) ?_
  refine leftAssociative_accepts (by simp) (by simp; decide) ?_
  refine leftAssociative_accepts (by simp; decide) (by simp; decide) ?_
  refine leftAssociative_accepts (by simp; decide) (by simp; decide) ?_
  refine leftAssociative_accepts (by simp; decide) (by simp; decide) ?_
  exact leftAssociative_accepts (by simp; decide) (by simp; decide) operands

/-- A primary expression is read whatever follows it. -/
theorem primaryRule_accepts
    {expression : Parse Expr}
    {phrase : Phrase Expr}
    (inside : Accepts expression phrase continuesExpression) :
    Accepts (primaryRule expression) (Primary phrase) (fun _ => false) := by
  intro first tokens result next derived rest endToken errors _
  have begins := primary_begins phrase derived
  cases derived with
  | @literal _ token value found =>
    obtain ⟨_, _, ⟨⟩, admits⟩ := begins
    refine (reads_acceptIf admits _ _ _ _).bind ?_
    unfold literal? at found
    split at found <;> simp_all [reads_pure]
  | name isName =>
    obtain ⟨_, _, ⟨⟩, admits⟩ := begins
    refine (reads_acceptIf admits _ _ _ _).bind ?_
    simp only [isName]
    exact (reads_freshReference _ _ _ _ _).bind (reads_pure _ _)
  | self isKeyword =>
    obtain ⟨_, _, ⟨⟩, admits⟩ := begins
    refine (reads_acceptIf admits _ _ _ _).bind ?_
    simp only [isKeyword]
    exact (reads_freshReference _ _ _ _ _).bind (reads_pure _ _)
  | inherited isKeyword isDot isName =>
    obtain ⟨_, _, ⟨⟩, admits⟩ := begins
    refine (reads_acceptIf admits _ _ _ _).bind ?_
    simp only [isKeyword]
    refine (reads_expect isDot _ _ _ _).bind ((reads_expect isName _ _ _ _).bind ?_)
    exact (reads_freshReference _ _ _ _ _).bind (reads_pure _ _)
  | @grouping _ _ opening closing tokens inner isOpening derived isClosing =>
    obtain ⟨_, _, ⟨⟩, admits⟩ := begins
    simp only [List.cons_append, List.append_assoc, List.nil_append]
    refine (reads_acceptIf admits _ _ _ _).bind ?_
    simp only [isOpening]
    refine (inside derived (closing :: rest) endToken errors ?_).bind ?_
    · rw [nextIs_cons, isClosing]
      rfl
    · exact (reads_expect isClosing _ _ _ _).bind (reads_pure _ _)

/-- A chain of calls and properties is read if it does not go on. -/
theorem callRule_accepts
    {expression : Parse Expr}
    {phrase : Phrase Expr}
    (inside : Accepts expression phrase continuesExpression)
    (begins : Begins beginsExpression phrase) :
    Accepts (callRule expression) (Call phrase) continuesCall := by
  intro first tokens result next derived rest endToken errors follows
  have steps : ∃ start middle,
      Reads (primaryRule expression) ⟨tokens ++ rest, endToken, first, errors⟩ start middle ∧
        Steps (nextCall expression) start middle result ⟨rest, endToken, next, errors⟩ := by
    clear follows
    induction derived generalizing rest with
    | primary only =>
      exact ⟨_, _, primaryRule_accepts inside only rest endToken errors (nextIs_nothing rest),
        .none⟩
    | @call _ _ _ _ argumentTokens opening closing _ _ _ isOpening listed inductionHypothesis =>
      obtain ⟨start, cursor, reads, steps⟩ :=
        inductionHypothesis (opening :: (argumentTokens ++ rest))
      refine ⟨start, cursor, by simpa using reads, .more steps ?_ ?_⟩
      · refine (reads_accept isOpening _ _ _ _).bind ?_
        exact (parenthesized_accepts inside begins (kind_apart rfl) rfl rfl listed
          rest endToken errors (nextIs_nothing rest)).bind (reads_pure _ _)
      · simp only [List.length_cons, List.length_append]
        omega
    | @property _ _ _ dot name _ _ isDot isName inductionHypothesis =>
      obtain ⟨start, cursor, reads, steps⟩ := inductionHypothesis (dot :: name :: rest)
      refine ⟨start, cursor, by simpa using reads, .more steps ?_ ?_⟩
      · refine (reads_acceptIf_none ?_).bind ?_
        · rw [nextIs_cons, isDot]
          rfl
        · refine (reads_accept isDot _ _ _ _).bind ?_
          exact (reads_expect isName _ _ _ _).bind (reads_pure _ _)
      · simp only [List.length_cons]
        omega
  obtain ⟨start, middle, reads, steps⟩ := steps
  refine reads.bind (reads_extend_of_steps steps ?_)
  have noParen : nextIs (· == .symbol .leftParen) rest = false := nextIs_kind_eq_false rfl follows
  have noDot : nextIs (· == .symbol .dot) rest = false := nextIs_kind_eq_false rfl follows
  exact (reads_acceptIf_none noParen).bind ((reads_acceptIf_none noDot).bind (reads_pure _ _))

/-- A unary expression is read if its operand does not go on. -/
theorem unaryRule_accepts
    {operand expression : Parse Expr}
    {operandPhrase expressionPhrase : Phrase Expr}
    (operands : Accepts operand operandPhrase continuesCall)
    (inside : Accepts expression expressionPhrase continuesExpression)
    (begins : Begins beginsExpression expressionPhrase) :
    Accepts (unaryRule operand expression) (Unary operandPhrase expressionPhrase)
      continuesCall := by
  intro first tokens result next derived rest endToken errors follows
  cases derived with
  | @operator _ _ _ operator _ isOperator derived =>
    have admits : isUnaryOperator operator.kind = true := by
      simp only [List.mem_cons, List.not_mem_nil, or_false] at isOperator
      rcases isOperator with same | same <;> rw [same] <;> rfl
    refine (reads_acceptIf admits _ _ _ _).bind ?_
    exact (operands derived rest endToken errors follows).bind (reads_pure _ _)
  | call derived =>
    refine (reads_acceptIf_none ?_).bind ?_
    · refine (call_begins expressionPhrase).nextIs_append ?_ derived rest
      intro kind begins
      unfold isUnaryOperator
      split <;> simp_all [beginsPrimary]
    · exact callRule_accepts inside begins derived rest endToken errors follows

theorem logicOr_of_call
    {operand expression : Phrase Expr}
    {first next : Nat}
    {tokens : List Token}
    {result : Expr}
    (derived : Call expression first tokens result next) :
    LogicOr (Unary operand expression) first tokens result next :=
  .operand <| .operand <| .operand <| .operand <| .operand <| .operand <| .call derived

/-- An assignment is read, and so is an expression that is none. -/
theorem assignmentRule_accepts
    {operand expression : Parse Expr}
    {operandPhrase expressionPhrase : Phrase Expr}
    (operands : Accepts operand operandPhrase continuesCall)
    (inside : Accepts expression expressionPhrase continuesExpression)
    (begins : Begins beginsExpression expressionPhrase) :
    Accepts (assignmentRule (unaryRule operand expression) expression)
      (Assignment (Unary operandPhrase expressionPhrase) expressionPhrase)
      continuesExpression := by
  have operators := operatorRule_accepts (unaryRule_accepts operands inside begins)
  intro first tokens result next derived rest endToken errors follows
  cases derived with
  | @named _ _ name equals valueTokens value isName isEquals right =>
    have target : LogicOr (Unary operandPhrase expressionPhrase) first [name]
        (.read ⟨first, name⟩) (first + 1) := logicOr_of_call (.primary (.name isName))
    refine (operators target (equals :: (valueTokens ++ rest)) endToken errors ?_).bind ?_
    · rw [nextIs_cons, isEquals]
      rfl
    · refine (reads_accept isEquals _ _ _ _).bind ?_
      refine (inside right rest endToken errors follows).bind ?_
      exact (reads_freshReference _ _ _ _ _).bind (reads_pure _ _)
  | @property _ _ _ targetTokens valueTokens dot name equals object value left isDot isName
      isEquals right =>
    have target : LogicOr (Unary operandPhrase expressionPhrase) first (targetTokens ++ [dot, name])
        (.property object name) _ := logicOr_of_call (.property left isDot isName)
    have reads := operators target (equals :: (valueTokens ++ rest)) endToken errors
      (by rw [nextIs_cons, isEquals]; rfl)
    simp only [List.append_assoc, List.cons_append, List.nil_append] at reads ⊢
    refine reads.bind ?_
    refine (reads_accept isEquals _ _ _ _).bind ?_
    exact (inside right rest endToken errors follows).bind (reads_pure _ _)
  | operators only =>
    obtain ⟨noEquals, notContinued⟩ := nextIs_or_eq_false_iff.mp follows
    refine (operators only rest endToken errors notContinued).bind ?_
    exact (reads_acceptIf_none noEquals).bind (reads_pure _ _)

/-- Expressions and operands are read as deeply as they are nested. -/
theorem expression_and_unaryOperand_accept (room : Nat) :
    Accepts (expression room) (Expression room) continuesExpression ∧
      Accepts (unaryOperand room) (Operand room) continuesCall := by
  induction room with
  | zero =>
    constructor
    · intro first tokens result next impossible
      exact impossible.elim
    · intro first tokens result next impossible
      exact impossible.elim
  | succ room inductionHypothesis =>
    obtain ⟨inside, operands⟩ := inductionHypothesis
    exact ⟨assignmentRule_accepts operands inside (expression_begins room),
      unaryRule_accepts operands inside (expression_begins room)⟩

/-- Every expression of the grammar is read, if nothing follows that continues
it. -/
theorem expression_accepts (room : Nat) :
    Accepts (expression room) (Expression room) continuesExpression :=
  (expression_and_unaryOperand_accept room).1

/-! ## Statements and declarations -/

section Statements

variable
  {expression : Parse Expr}
  {statement : Parse Stmt}
  {block : Parse (List Stmt)}
  {expressionPhrase : Phrase Expr}
  {statementPhrase : Bool -> Phrase Stmt}
  {blockPhrase : Phrase (List Stmt)}

/-- An expression is read before a token that does not continue it. -/
theorem Accepts.before
    {reader : Parse α}
    {phrase : Phrase α}
    {excluded : Token.Kind -> Bool}
    (accepts : Accepts reader phrase excluded)
    {first next : Nat}
    {tokens : List Token}
    {result : α}
    (derived : phrase first tokens result next)
    {kind : Token.Kind}
    {token : Token}
    (hasKind : token.kind = kind)
    (ends : excluded kind = false)
    (rest : List Token)
    (endToken : Token)
    (errors : Array SyntaxError) :
    Reads reader ⟨tokens ++ token :: rest, endToken, first, errors⟩ result
      ⟨token :: rest, endToken, next, errors⟩ := by
  refine accepts derived (token :: rest) endToken errors ?_
  rw [nextIs_cons, hasKind]
  exact ends

/-- An expression statement is read up to its semicolon. -/
theorem expressionStatementRule_accepts
    (inside : Accepts expression expressionPhrase continuesExpression) :
    Accepts (expressionStatementRule expression) (ExpressionStatement expressionPhrase)
      (fun _ => false) := by
  rintro first tokens result next ⟨derived, isSemicolon⟩ rest endToken errors -
  rw [List.append_assoc]
  refine (inside.before derived isSemicolon rfl _ _ _).bind ?_
  exact (reads_expect isSemicolon _ _ _ _).bind (reads_pure _ _)

/-- A variable declaration is read up to its semicolon. -/
theorem declareRule_accepts
    (inside : Accepts expression expressionPhrase continuesExpression) :
    Accepts (declareRule expression) (VariableDeclaration expressionPhrase)
      (fun _ => false) := by
  rintro first tokens result next ⟨isName, initializer, isSemicolon⟩ rest endToken errors -
  cases initializer with
  | none =>
    refine (reads_expect isName _ _ _ _).bind ?_
    refine (reads_acceptIf_none ?_).bind ?_
    · simp [isSemicolon]
    · refine (reads_pure none _).bind ?_
      exact (reads_expect isSemicolon _ _ _ _).bind (reads_pure _ _)
  | some isEquals derived =>
    simp only [List.cons_append, List.append_assoc, List.nil_append]
    refine (reads_expect isName _ _ _ _).bind ?_
    refine (reads_accept isEquals _ _ _ _).bind ?_
    refine (inside.before derived isSemicolon rfl _ _ _).bind ((reads_pure (some _) _).bind ?_)
    exact (reads_expect isSemicolon _ _ _ _).bind (reads_pure _ _)

/-- An expression that may be missing is read up to the token that ends it. -/
theorem optionalUnless_accepts
    {kind : Token.Kind}
    (inside : Accepts expression expressionPhrase continuesExpression)
    (begins : Begins beginsExpression expressionPhrase)
    (never : beginsExpression kind = false)
    (ends : continuesExpression kind = false)
    {first next : Nat}
    {tokens : List Token}
    {result : Option Expr}
    (derived : Optional expressionPhrase first tokens result next)
    {token : Token}
    (hasKind : token.kind = kind)
    (rest : List Token)
    (endToken : Token)
    (errors : Array SyntaxError) :
    Reads (optionalUnless kind expression) ⟨tokens ++ token :: rest, endToken, first, errors⟩
      result ⟨token :: rest, endToken, next, errors⟩ := by
  cases derived with
  | none =>
    have isNext : nextIs (· == kind) ([] ++ token :: rest) = true := by simp [hasKind]
    exact (reads_check isNext).bind (reads_pure _ _)
  | some only =>
    refine (reads_check (begins.nextIs_append (kind_apart never) only _)).bind ?_
    exact (inside.before only hasKind ends _ _ _).bind (reads_pure _ _)

/-- What begins a loop is read up to its semicolon. -/
theorem forInitializerRule_accepts
    (inside : Accepts expression expressionPhrase continuesExpression)
    (begins : Begins beginsExpression expressionPhrase) :
    Accepts (forInitializerRule expression) (ForInitializer expressionPhrase)
      (fun _ => false) := by
  intro first tokens result next derived rest endToken errors follows
  cases derived with
  | none isSemicolon => exact (reads_accept isSemicolon _ _ _ _).bind (reads_pure _ _)
  | variableDecl isWord derived =>
    refine (reads_acceptIf_none ?_).bind ?_
    · simp [isWord]
    · refine (reads_accept isWord _ _ _ _).bind ?_
      exact (declareRule_accepts inside derived rest endToken errors follows).bind (reads_pure _ _)
  | expression only =>
    have startsExpression := expressionStatement_begins begins
    refine (reads_acceptIf_none (startsExpression.nextIs_append (kind_apart rfl) only _)).bind ?_
    refine (reads_acceptIf_none (startsExpression.nextIs_append (kind_apart rfl) only _)).bind ?_
    exact (expressionStatementRule_accepts inside only rest endToken errors follows).bind
      (reads_pure _ _)

/-- The tokens that continue a statement: an `else`, if it ends in an `if`
without one. -/
def continuesStatement (dangling : Bool) (kind : Token.Kind) : Bool :=
  dangling && kind == .keyword .elseWord

/-- No token continues a statement that is complete. -/
theorem nextIs_continuesStatement_false (tokens : List Token) :
    nextIs (continuesStatement false) tokens = false := by
  cases tokens <;> rfl

/-- Only `else` continues a statement that may go on. -/
theorem nextIs_continuesStatement_true (tokens : List Token) :
    nextIs (continuesStatement true) tokens = nextIs (· == .keyword .elseWord) tokens := by
  cases tokens <;> rfl

/-- Nothing that begins like an expression begins a statement of another form. -/
theorem beginsProperStatement_of_beginsExpression
    (kind : Token.Kind)
    (begins : beginsExpression kind = true) :
    beginsProperStatement kind = false := by
  unfold beginsProperStatement
  split <;> simp_all [beginsExpression, beginsPrimary, isUnaryOperator]

/-- Nothing that begins like a statement begins a declaration of another form. -/
theorem beginsProperDeclaration_of_beginsStatement
    (kind : Token.Kind)
    (begins : beginsStatement kind = true) :
    beginsProperDeclaration kind = false := by
  unfold beginsProperDeclaration
  split <;> simp_all [beginsStatement, beginsProperStatement, beginsExpression, beginsPrimary,
    isUnaryOperator]

/-- A statement is read if no `else` follows that would belong to it. -/
theorem statementRule_accepts
    (inside : Accepts expression expressionPhrase continuesExpression)
    (begins : Begins beginsExpression expressionPhrase)
    (statements : ∀ dangling,
      Accepts statement (statementPhrase dangling) (continuesStatement dangling))
    (blocks : Accepts block blockPhrase (fun _ => false))
    (dangling : Bool) :
    Accepts (statementRule expression statement block)
      (Statement expressionPhrase statementPhrase blockPhrase dangling)
      (continuesStatement dangling) := by
  intro first tokens result next derived rest endToken errors follows
  cases derived with
  | expression only =>
    refine (reads_acceptIf_none ?_).bind ?_
    · exact (expressionStatement_begins begins).nextIs_append
        beginsProperStatement_of_beginsExpression only rest
    · exact expressionStatementRule_accepts inside only rest endToken errors (nextIs_nothing rest)
  | print isWord derived isSemicolon =>
    simp only [List.cons_append, List.append_assoc, List.nil_append]
    refine (reads_acceptIf (by rw [isWord]; rfl) _ _ _ _).bind ?_
    simp only [isWord]
    refine (inside.before derived isSemicolon rfl _ _ _).bind ?_
    exact (reads_expect isSemicolon _ _ _ _).bind (reads_pure _ _)
  | returns isWord derived isSemicolon =>
    simp only [List.cons_append, List.append_assoc, List.nil_append]
    refine (reads_acceptIf (by rw [isWord]; rfl) _ _ _ _).bind ?_
    simp only [isWord]
    refine (optionalUnless_accepts inside begins rfl rfl derived isSemicolon _ _ _).bind ?_
    exact (reads_expect isSemicolon _ _ _ _).bind (reads_pure _ _)
  | block isOpening derived =>
    refine (reads_acceptIf (by rw [isOpening]; rfl) _ _ _ _).bind ?_
    simp only [isOpening]
    exact (blocks derived rest endToken errors (nextIs_nothing rest)).bind (reads_pure _ _)
  | loop isWord isOpening derived isClosing repeated =>
    simp only [List.cons_append, List.append_assoc]
    refine (reads_acceptIf (by rw [isWord]; rfl) _ _ _ _).bind ?_
    simp only [isWord]
    refine (reads_expect isOpening _ _ _ _).bind ?_
    refine (inside.before derived isClosing rfl _ _ _).bind ?_
    refine (reads_expect isClosing _ _ _ _).bind ?_
    exact (statements dangling repeated rest endToken errors follows).bind (reads_pure _ _)
  | forLoop isWord isOpening start test isSemicolon step isClosing repeated =>
    simp only [List.cons_append, List.append_assoc]
    refine (reads_acceptIf (by rw [isWord]; rfl) _ _ _ _).bind ?_
    simp only [isWord]
    refine (reads_expect isOpening _ _ _ _).bind ?_
    refine (forInitializerRule_accepts inside begins start _ endToken errors
      (nextIs_nothing _)).bind ?_
    refine (optionalUnless_accepts inside begins rfl rfl test isSemicolon _ _ _).bind ?_
    refine (reads_expect isSemicolon _ _ _ _).bind ?_
    refine (optionalUnless_accepts inside begins rfl rfl step isClosing _ _ _).bind ?_
    refine (reads_expect isClosing _ _ _ _).bind ?_
    exact (statements dangling repeated rest endToken errors follows).bind (reads_pure _ _)
  | @conditional _ _ _ branchDangling _ _ _ _ _ _ _ isWord isOpening derived isClosing whenTrue =>
    simp only [List.cons_append, List.append_assoc]
    have noElse : nextIs (· == .keyword .elseWord) rest = false := by
      rw [← nextIs_continuesStatement_true]
      exact follows
    have branchFollows : nextIs (continuesStatement branchDangling) rest = false := by
      cases branchDangling with
      | false => exact nextIs_continuesStatement_false rest
      | true => exact follows
    refine (reads_acceptIf (by rw [isWord]; rfl) _ _ _ _).bind ?_
    simp only [isWord]
    refine (reads_expect isOpening _ _ _ _).bind ?_
    refine (inside.before derived isClosing rfl _ _ _).bind ?_
    refine (reads_expect isClosing _ _ _ _).bind ?_
    refine (statements branchDangling whenTrue rest endToken errors branchFollows).bind ?_
    exact (reads_acceptIf_none noElse).bind (reads_pure _ _)
  | alternative isWord isOpening derived isClosing whenTrue isOtherwise whenFalse =>
    simp only [List.cons_append, List.append_assoc]
    refine (reads_acceptIf (by rw [isWord]; rfl) _ _ _ _).bind ?_
    simp only [isWord]
    refine (reads_expect isOpening _ _ _ _).bind ?_
    refine (inside.before derived isClosing rfl _ _ _).bind ?_
    refine (reads_expect isClosing _ _ _ _).bind ?_
    refine ((statements false).before whenTrue isOtherwise rfl _ _ _).bind ?_
    refine (reads_accept isOtherwise _ _ _ _).bind ?_
    exact (statements dangling whenFalse rest endToken errors follows).bind (reads_pure _ _)

/-- A function is read up to the end of its body. -/
theorem functionRule_accepts
    {what : String}
    (blocks : Accepts block blockPhrase (fun _ => false)) :
    Accepts (functionRule what block) (Function blockPhrase) (fun _ => false) := by
  rintro first tokens result next ⟨isName, isOpening, listed, isBrace, derived⟩
    rest endToken errors follows
  simp only [List.cons_append, List.append_assoc]
  refine (reads_expect isName _ _ _ _).bind ?_
  refine (reads_expect isOpening _ _ _ _).bind ?_
  refine (parenthesized_accepts (identifier_accepted _) (terminal_begins .identifier)
    (kind_apart rfl) rfl rfl listed _ endToken errors (nextIs_nothing _)).bind ?_
  refine (reads_expect isBrace _ _ _ _).bind ?_
  exact (blocks derived rest endToken errors follows).bind (reads_pure _ _)

/-- Methods are read up to the brace that closes the class. -/
theorem methodsRule_accepts
    (blocks : Accepts block blockPhrase (fun _ => false))
    {first next : Nat}
    {tokens : List Token}
    {methods : List FunctionDecl}
    (derived : Repeated (Function blockPhrase) first tokens methods next)
    {closing : Token}
    (isClosing : closing.kind = .symbol .rightBrace)
    (rest : List Token)
    (endToken : Token)
    (errors : Array SyntaxError) :
    Reads (methodsRule block) ⟨tokens ++ closing :: rest, endToken, first, errors⟩ methods
      ⟨closing :: rest, endToken, next, errors⟩ := by
  refine repeated_accepts (function_begins blockPhrase) (fun _ _ => rfl) ?_ derived
    (closing :: rest) endToken errors (nextIs_nothing _) fun found => ?_
  · intro first tokens one next derived found rest endToken errors follows
    have noBrace : nextIs (· == .symbol .rightBrace) (tokens ++ rest) = false :=
      (function_begins blockPhrase).nextIs_append (kind_apart rfl) derived rest
    have notEmpty := (function_begins blockPhrase).ne_nil derived
    refine (reads_check noBrace).bind ((reads_atEnd_false ?_).bind ?_)
    · simp [notEmpty]
    · exact (functionRule_accepts blocks derived rest endToken errors follows).bind
        (reads_pure _ _)
  · have isNext : nextIs (· == .symbol .rightBrace) (closing :: rest) = true := by
      simp [isClosing]
    exact (reads_check isNext).bind ((reads_atEnd rfl).bind (reads_pure _ _))

/-- A superclass is read, if there is one. -/
theorem superclassRule_accepts :
    Accepts superclassRule Superclass (· == .symbol .less) := by
  intro first tokens result next derived rest endToken errors follows
  cases derived with
  | none => exact (reads_acceptIf_none follows).bind (reads_pure _ _)
  | some isLess isName =>
    refine (reads_accept isLess _ _ _ _).bind ((reads_expect isName _ _ _ _).bind ?_)
    exact (reads_freshReference _ _ _ _ _).bind (reads_pure _ _)

/-- A declaration is read before anything but an `else`. -/
theorem declarationRule_accepts
    (inside : Accepts expression expressionPhrase continuesExpression)
    (statements : ∀ dangling,
      Accepts statement (statementPhrase dangling) (continuesStatement dangling))
    (begins : ∀ dangling, Begins beginsStatement (statementPhrase dangling))
    (blocks : Accepts block blockPhrase (fun _ => false))
    {first next : Nat}
    {tokens : List Token}
    {result : Stmt}
    (derived : Declaration expressionPhrase statementPhrase blockPhrase first tokens result next)
    (rest : List Token)
    (endToken : Token)
    (errors : Array SyntaxError)
    (follows : nextIs (· == .keyword .elseWord) rest = false) :
    Reads (declarationRule expression statement block)
      ⟨tokens ++ rest, endToken, first, errors⟩ (some result)
      ⟨rest, endToken, next, errors⟩ := by
  refine reads_recovering ?_
  cases derived with
  | classDecl isWord isName inherits isOpening methods isClosing =>
    simp only [List.cons_append, List.append_assoc, List.nil_append]
    refine (reads_acceptIf (by rw [isWord]; rfl) _ _ _ _).bind ?_
    simp only [isWord]
    refine (reads_expect isName _ _ _ _).bind ?_
    refine (superclassRule_accepts.before inherits isOpening rfl _ _ _).bind ?_
    refine (reads_expect isOpening _ _ _ _).bind ?_
    refine (methodsRule_accepts blocks methods isClosing _ _ _).bind ?_
    exact (reads_expect isClosing _ _ _ _).bind (reads_pure _ _)
  | function isWord derived =>
    refine (reads_acceptIf (by rw [isWord]; rfl) _ _ _ _).bind ?_
    simp only [isWord]
    exact (functionRule_accepts blocks derived rest endToken errors (nextIs_nothing rest)).bind
      (reads_pure _ _)
  | variableDecl isWord derived =>
    refine (reads_acceptIf (by rw [isWord]; rfl) _ _ _ _).bind ?_
    simp only [isWord]
    exact declareRule_accepts inside derived rest endToken errors (nextIs_nothing rest)
  | @statement _ _ dangling _ _ only =>
    refine (reads_acceptIf_none ?_).bind ?_
    · exact (begins dangling).nextIs_append beginsProperDeclaration_of_beginsStatement only rest
    · refine statements dangling only rest endToken errors ?_
      cases dangling with
      | false => exact nextIs_continuesStatement_false rest
      | true => exact follows

/-- Declarations are read one after the other, up to where no more of them are
looked for. -/
theorem declarationsWhile_accepts
    {more : Parse Bool}
    {declaration : Parse (Option Stmt)}
    {phrase : Phrase Stmt}
    (begins : Begins beginsDeclaration phrase)
    (declarations : ∀ ⦃first tokens result next⦄, phrase first tokens result next ->
      ∀ rest endToken errors, nextIs (· == .keyword .elseWord) rest = false ->
        Reads declaration ⟨tokens ++ rest, endToken, first, errors⟩ (some result)
          ⟨rest, endToken, next, errors⟩)
    (goesOn : ∀ ⦃first tokens result next⦄, phrase first tokens result next ->
      ∀ rest endToken errors,
        Reads more ⟨tokens ++ rest, endToken, first, errors⟩ true
          ⟨tokens ++ rest, endToken, first, errors⟩)
    {first next : Nat}
    {tokens : List Token}
    {result : List Stmt}
    (derived : Repeated phrase first tokens result next)
    (rest : List Token)
    (endToken : Token)
    (errors : Array SyntaxError)
    (follows : nextIs (· == .keyword .elseWord) rest = false)
    (stops : Reads more ⟨rest, endToken, next, errors⟩ false ⟨rest, endToken, next, errors⟩) :
    Reads (declarationsWhile more declaration) ⟨tokens ++ rest, endToken, first, errors⟩ result
      ⟨rest, endToken, next, errors⟩ := by
  refine repeated_accepts begins (kind_apart rfl) ?_ derived rest endToken errors follows
    fun found => stops.bind (reads_pure _ _)
  intro first tokens one next derived found rest endToken errors follows
  refine (goesOn derived rest endToken errors).bind ?_
  exact (declarations derived rest endToken errors follows).bind (reads_pure _ _)

/-- A block is read up to its closing brace. -/
theorem blockRule_accepts
    {declaration : Parse (Option Stmt)}
    {phrase : Phrase Stmt}
    (begins : Begins beginsDeclaration phrase)
    (declarations : ∀ ⦃first tokens result next⦄, phrase first tokens result next ->
      ∀ rest endToken errors, nextIs (· == .keyword .elseWord) rest = false ->
        Reads declaration ⟨tokens ++ rest, endToken, first, errors⟩ (some result)
          ⟨rest, endToken, next, errors⟩) :
    Accepts (blockRule declaration) (Block phrase) (fun _ => false) := by
  intro first tokens result next derived rest endToken errors _
  obtain @⟨_, _, inner, closing, _, derived, isClosing⟩ := derived
  simp only [List.append_assoc, List.cons_append, List.nil_append]
  refine (declarationsWhile_accepts begins declarations ?_ derived _ endToken errors ?_ ?_).bind ?_
  · intro first tokens result next derived rest endToken errors
    have noBrace : nextIs (· == .symbol .rightBrace) (tokens ++ rest) = false :=
      begins.nextIs_append (kind_apart rfl) derived rest
    have notEmpty := begins.ne_nil derived
    refine (reads_check noBrace).bind ((reads_atEnd_false ?_).bind (reads_pure _ _))
    simp [notEmpty]
  · simp [isClosing]
  · have isNext : nextIs (· == .symbol .rightBrace) (closing :: rest) = true := by
      simp [isClosing]
    exact (reads_check isNext).bind ((reads_atEnd rfl).bind (reads_pure _ _))
  · exact (reads_expect isClosing _ _ _ _).bind (reads_pure _ _)

end Statements

/-- Statements and blocks are read as deeply as they are nested. -/
theorem statement_and_block_accept (room : Nat) :
    (∀ dangling, Accepts (statement room) (StatementWithin room dangling)
        (continuesStatement dangling)) ∧
      Accepts (block room) (BlockWithin room) (fun _ => false) := by
  induction room with
  | zero =>
    constructor
    · intro dangling first tokens result next impossible
      exact impossible.elim
    · intro first tokens result next impossible
      exact impossible.elim
  | succ room inductionHypothesis =>
    obtain ⟨statements, blocks⟩ := inductionHypothesis
    refine ⟨statementRule_accepts (expression_accepts room) (expression_begins room) statements
      blocks, blockRule_accepts (declarationWithin_begins room) ?_⟩
    intro first tokens result next derived
    exact declarationRule_accepts (expression_accepts room) statements
      (statementWithin_begins room) blocks derived

/-- Every program of the grammar is read to its end. -/
theorem program_accepts
    {first next : Nat}
    {tokens : List Token}
    {statements : List Stmt}
    (derived : Program first tokens statements next)
    (endToken : Token)
    (errors : Array SyntaxError) :
    Reads program ⟨tokens, endToken, first, errors⟩ statements
      ⟨[], endToken, next, errors⟩ := by
  obtain ⟨statementsAccepted, blocksAccepted⟩ := statement_and_block_accept maxNesting
  rw [← List.append_nil tokens]
  refine declarationsWhile_accepts (declarationWithin_begins maxNesting) ?_ ?_ derived
    [] endToken errors rfl ((reads_atEnd rfl).bind (reads_pure _ _))
  · intro first tokens result next derived
    exact declarationRule_accepts (expression_accepts maxNesting) statementsAccepted
      (statementWithin_begins maxNesting) blocksAccepted derived
  · intro first tokens result next derived rest endToken errors
    have notEmpty := (declarationWithin_begins maxNesting).ne_nil derived
    refine (reads_atEnd_false ?_).bind (reads_pure _ _)
    simp [notEmpty]

/-- Every expression of the grammar is read to its end. -/
theorem wholeExpression_accepts
    {first next : Nat}
    {tokens : List Token}
    {result : Expr}
    (derived : Expression maxNesting first tokens result next)
    (endToken : Token)
    (errors : Array SyntaxError) :
    Reads wholeExpression ⟨tokens, endToken, first, errors⟩ result
      ⟨[], endToken, next, errors⟩ := by
  have reads := expression_accepts maxNesting derived [] endToken errors rfl
  rw [List.append_nil] at reads
  exact reads.bind ((reads_atEnd rfl).bind (reads_pure _ _))

/-- A reader started without errors ends without any exactly when it reads. -/
theorem reads_of_no_errors
    {reader : Parse α}
    {before after : Cursor}
    {result : α}
    (clean : before.errors = #[])
    (outcome : reader before = .ok result after)
    (finished : after.errors = #[]) :
    Reads reader before result after :=
  ⟨outcome, by rw [clean, finished]⟩

/-- A program that the grammar derives is parsed, without any error. -/
theorem parseTokens_of_program
    {first next : Nat}
    {tokens : List Token}
    {statements : List Stmt}
    (derived : Program first tokens statements next)
    (endToken : Token) :
    parseTokens tokens endToken first = ⟨statements, next, []⟩ := by
  obtain ⟨outcome, -⟩ := program_accepts derived endToken #[]
  rw [parseTokens, outcome]

/-- An expression that the grammar derives is parsed, without any error. -/
theorem parseExpressionTokens_of_expression
    {next : Nat}
    {tokens : List Token}
    {result : Expr}
    (derived : Expression maxNesting 0 tokens result next)
    (endToken : Token) :
    parseExpressionTokens tokens endToken = ⟨some result, next, []⟩ := by
  obtain ⟨outcome, -⟩ := wholeExpression_accepts derived endToken #[]
  rw [parseExpressionTokens, outcome]

/-- What is parsed without errors is derived by the grammar, all of it. -/
theorem program_of_parseTokens
    {tokens : List Token}
    {endToken : Token}
    {first : Nat}
    (noErrors : (parseTokens tokens endToken first).errors = []) :
    Program first tokens (parseTokens tokens endToken first).result
      (parseTokens tokens endToken first).nextId := by
  unfold parseTokens at noErrors ⊢
  cases outcome : program ⟨tokens, endToken, first, #[]⟩ with
  | error error after =>
    rw [outcome] at noErrors
    simp at noErrors
  | ok statements after =>
    rw [outcome] at noErrors
    have reads := reads_of_no_errors rfl outcome (Array.toList_eq_nil_iff.mp noErrors)
    obtain ⟨used, split, derived, finished⟩ := program_follows.sound reads
    rw [finished, List.append_nil] at split
    cases split
    exact derived

/-- An expression that is parsed without any error is derived by the grammar. -/
theorem expression_of_parseExpressionTokens
    {tokens : List Token}
    {endToken : Token}
    (noErrors : (parseExpressionTokens tokens endToken).errors = []) :
    ∃ result, Expression maxNesting 0 tokens result
      (parseExpressionTokens tokens endToken).nextId := by
  unfold parseExpressionTokens at noErrors ⊢
  cases outcome : wholeExpression ⟨tokens, endToken, 0, #[]⟩ with
  | error error after =>
    rw [outcome] at noErrors
    simp at noErrors
  | ok result after =>
    rw [outcome] at noErrors
    have reads := reads_of_no_errors rfl outcome (Array.toList_eq_nil_iff.mp noErrors)
    obtain ⟨used, split, derived, finished⟩ := wholeExpression_follows.sound reads
    rw [finished, List.append_nil] at split
    cases split
    exact ⟨result, derived⟩

/-- Parsing finds no error exactly when the grammar derives the tokens, all of
them, and its result is then the tree of the derivation, for whole programs and
for single expressions. -/
theorem parses_exactly_the_grammar
    (tokens : List Token)
    (endToken : Token)
    (first : Nat) :
    ((parseTokens tokens endToken first).errors = [] ↔
        ∃ statements next, Program first tokens statements next) ∧
      (∀ statements next, Program first tokens statements next ↔
        parseTokens tokens endToken first = ⟨statements, next, []⟩) ∧
      ((parseExpressionTokens tokens endToken).errors = [] ↔
        ∃ result next, Expression maxNesting 0 tokens result next) ∧
      (∀ result next, Expression maxNesting 0 tokens result next ↔
        parseExpressionTokens tokens endToken = ⟨some result, next, []⟩) := by
  refine ⟨⟨fun noErrors => ?_, ?_⟩, fun statements next => ⟨fun derived => ?_, fun parsed => ?_⟩,
    ⟨fun noErrors => ?_, ?_⟩, fun result next => ⟨fun derived => ?_, fun parsed => ?_⟩⟩
  · exact ⟨_, _, program_of_parseTokens noErrors⟩
  · rintro ⟨statements, next, derived⟩
    rw [parseTokens_of_program derived endToken]
  · exact parseTokens_of_program derived endToken
  · have derived := program_of_parseTokens (congrArg Parsed.errors parsed)
    rwa [parsed] at derived
  · obtain ⟨result, derived⟩ := expression_of_parseExpressionTokens noErrors
    exact ⟨result, _, derived⟩
  · rintro ⟨result, next, derived⟩
    rw [parseExpressionTokens_of_expression derived endToken]
  · exact parseExpressionTokens_of_expression derived endToken
  · obtain ⟨found, derived⟩ :=
      expression_of_parseExpressionTokens (congrArg Parsed.errors parsed)
    have same := (parseExpressionTokens_of_expression derived endToken).symm.trans parsed
    rw [parsed] at derived
    cases same
    exact derived

end Parse

/-! ## Source texts -/

/-- There is no error if there is neither a lexical nor a syntax error. -/
theorem Parsed.errors_withScan_eq_nil_iff
    {α : Type}
    {parsed : Parsed α}
    {scan : Scan} :
    (parsed.withScan scan).errors = [] ↔ scan.errors = [] ∧ parsed.errors = [] := by
  rw [withScan, List.append_eq_nil_iff, List.map_eq_nil_iff]

/-- A source text without lexical errors is parsed to the expression that its tokens
derive. -/
theorem parseExpression_of_derived
    {source : String}
    {result : Expr}
    {next : Nat}
    (clean : (Scan.ofSource source).errors = [])
    (derived : Grammar.Expression Parse.maxNesting 0 (Scan.ofSource source).tokens result next) :
    parseExpression source = ⟨some result, next, []⟩ := by
  rw [parseExpression, Parse.parseExpressionTokens_of_expression derived]
  simp [Parsed.withScan, clean]

end TreeWalk
