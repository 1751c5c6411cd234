import TreeWalk.Proofs.Parse.Completeness
import TreeWalk.Proofs.Parse.Segments

/-!
# Room for expressions

How deep an expression may nest is limited, and so is what can be read.  Whatever
is read within a limit is read in the same way within a higher one.
-/

namespace TreeWalk
namespace Parse

/-- Whatever a reader reads, a larger one reads in the same way. -/
def Extends {α : Type} (reader larger : Parse α) : Prop :=
  ∀ cursor result after, reader cursor = .ok result after -> larger cursor = .ok result after

section Rules

variable {α β : Type}

/-- A reader finds what it finds. -/
theorem extends_refl (reader : Parse α) : Extends reader reader :=
  fun _ _ _ ended => ended

/-- What a larger reader finds, a still larger one finds. -/
theorem Extends.trans
    {reader middle larger : Parse α}
    (first : Extends reader middle)
    (second : Extends middle larger) :
    Extends reader larger :=
  fun cursor result after ended => second cursor result after (first cursor result after ended)

/-- There is nothing to find for a larger reader where a reader fails. -/
theorem extends_fail (fault : SyntaxFault) (larger : Parse α) : Extends (fail fault) larger :=
  fun _ _ _ ended => nomatch ended

/-- Two larger readers find what the smaller ones find. -/
theorem Extends.bind
    {reader larger : Parse α}
    {rest largerRest : α -> Parse β}
    (first : Extends reader larger)
    (second : ∀ result, Extends (rest result) (largerRest result)) :
    Extends (reader >>= rest) (larger >>= largerRest) := by
  intro cursor result after ended
  obtain ⟨found, middle, firstEnded, secondEnded⟩ := bind_eq_ok_iff.mp ended
  rw [bind_of_ok (first cursor found middle firstEnded)]
  exact second found middle result after secondEnded

/-- Larger steps find what the smaller ones find. -/
theorem extends_extend
    {step largerStep : α -> Parse (Option α)}
    (steps : ∀ start, Extends (step start) (largerStep start))
    (start : α) :
    Extends (extend step start) (extend largerStep start) := by
  have rounds : ∀ count start,
      Extends (extendAtMost step count start) (extendAtMost largerStep count start) := by
    intro count
    induction count with
    | zero => exact fun start => extends_refl _
    | succ count inductionHypothesis =>
      refine fun start => (steps start).bind fun found => ?_
      cases found with
      | none => exact extends_refl _
      | some longer => exact inductionHypothesis longer
  refine (steps start).bind fun found => ?_
  cases found with
  | none => exact extends_refl _
  | some longer => exact (extends_refl get).bind fun cursor => rounds _ longer

/-- A list in parentheses is found with larger items. -/
theorem extends_parenthesized
    {item larger : Parse α}
    (items : Extends item larger)
    (what : String) :
    Extends (parenthesized what item) (parenthesized what larger) := by
  have steps : ∀ found, Extends (nextItem what item found) (nextItem what larger found) := by
    intro found
    refine (extends_refl (accept (.symbol .comma))).bind fun comma => ?_
    cases comma with
    | none => exact extends_refl _
    | some comma =>
      have pushes : Extends (do return some (found.push (← item)))
          (do return some (found.push (← larger))) := items.bind fun _ => extends_refl _
      dsimp only
      split
      · exact (extends_refl (reportNext (.tooMany what))).bind fun _ => pushes
      · exact pushes
  refine (extends_refl (check (.symbol .rightParen))).bind fun isClosed => ?_
  cases isClosed with
  | true => exact extends_refl _
  | false =>
    have all : Extends (commaSeparated what item) (commaSeparated what larger) :=
      items.bind fun first => (extends_extend steps #[first]).bind fun _ => extends_refl _
    exact all.bind fun _ => extends_refl _

end Rules

section Expressions

variable {expression largerExpression operand largerOperand : Parse Expr}

/-- A chain of operators is found with larger operands. -/
theorem extends_leftAssociative
    (operands : Extends operand largerOperand)
    (isOperator : Token.Kind -> Bool)
    (combine : Expr -> Token -> Expr -> Expr) :
    Extends (leftAssociative isOperator combine operand)
      (leftAssociative isOperator combine largerOperand) := by
  refine operands.bind fun first => extends_extend (fun left => ?_) first
  refine (extends_refl (acceptIf isOperator)).bind fun operator => ?_
  cases operator with
  | none => exact extends_refl _
  | some operator => exact operands.bind fun right => extends_refl _

/-- So are the chains of every rank. -/
theorem extends_operatorRule (operands : Extends operand largerOperand) :
    Extends (operatorRule operand) (operatorRule largerOperand) := by
  unfold operatorRule
  iterate 6 refine extends_leftAssociative ?_ _ _
  exact operands

/-- A primary expression is found with a larger expression inside. -/
theorem extends_primaryRule (inside : Extends expression largerExpression) :
    Extends (primaryRule expression) (primaryRule largerExpression) := by
  refine (extends_refl (acceptIf beginsPrimary)).bind fun found => ?_
  cases found with
  | none => exact extends_refl _
  | some token =>
    dsimp only
    -- Only a parenthesised expression has another expression in it.
    split <;> first
      | exact extends_refl _
      | exact inside.bind fun inner => extends_refl _

/-- So is a chain of calls and properties. -/
theorem extends_callRule (inside : Extends expression largerExpression) :
    Extends (callRule expression) (callRule largerExpression) := by
  refine (extends_primaryRule inside).bind fun first => extends_extend (fun callee => ?_) first
  refine (extends_refl (accept (.symbol .leftParen))).bind fun opening => ?_
  cases opening with
  | none => exact extends_refl _
  | some opening => exact (extends_parenthesized inside _).bind fun _ => extends_refl _

/-- So is a unary expression. -/
theorem extends_unaryRule
    (operands : Extends operand largerOperand)
    (inside : Extends expression largerExpression) :
    Extends (unaryRule operand expression) (unaryRule largerOperand largerExpression) := by
  refine (extends_refl (acceptIf isUnaryOperator)).bind fun operator => ?_
  cases operator with
  | none => exact extends_callRule inside
  | some operator => exact operands.bind fun right => extends_refl _

/-- So is an assignment. -/
theorem extends_assignmentRule
    (operands : Extends operand largerOperand)
    (inside : Extends expression largerExpression) :
    Extends (assignmentRule operand expression)
      (assignmentRule largerOperand largerExpression) := by
  refine (extends_operatorRule operands).bind fun left => ?_
  refine (extends_refl (accept (.symbol .equal))).bind fun equals => ?_
  cases equals with
  | none => exact extends_refl _
  | some equals => exact inside.bind fun value => extends_refl _

end Expressions

/-- With more room, the same expressions and operands are found. -/
theorem extends_expression_and_unaryOperand (room : Nat) :
    Extends (expression room) (expression (room + 1)) ∧
      Extends (unaryOperand room) (unaryOperand (room + 1)) := by
  induction room with
  | zero => exact ⟨extends_fail _ _, extends_fail _ _⟩
  | succ room inductionHypothesis =>
    obtain ⟨inside, operands⟩ := inductionHypothesis
    have unary := extends_unaryRule operands inside
    exact ⟨extends_assignmentRule unary inside, unary⟩

/-- An expression that is read is read in the same way where it may nest deeper. -/
theorem extends_expression
    {room more : Nat}
    (notLess : room ≤ more) :
    Extends (expression room) (expression more) := by
  induction notLess with
  | refl => exact extends_refl _
  | step _ inductionHypothesis =>
    exact inductionHypothesis.trans (extends_expression_and_unaryOperand _).1

/-- Reading an expression notes the same errors whatever was noted before it, and
whichever numbers have been given out. -/
theorem expression_noting
    {room : Nat}
    {cursor after : Cursor}
    {result : Expr}
    (ended : expression room cursor = .ok result after) :
    ∃ found ownResult ownAfter,
      after.errors.toList = cursor.errors.toList ++ found ∧
        expression room ⟨cursor.rest, cursor.endToken, 0, #[]⟩ = .ok ownResult ownAfter ∧
        ownAfter.errors.toList = found := by
  let excerpt := Excerpt.since cursor 0 [] cursor.endToken fun _ => rfl
  have cut : excerpt.Cut cursor ⟨cursor.rest, cursor.endToken, 0, #[]⟩ :=
    Excerpt.cut_since (List.append_nil cursor.rest).symm (Nat.zero_le cursor.nextId)
  have steady := (steady_expression_and_unaryOperand excerpt room).1 True
  obtain ⟨ownResult, ownAfter, ownEnded, -, cutAfter⟩ := steady.succeeds trivial cursor _ result
    after after.rest cut ended (List.append_nil _).symm (.inl rfl)
  obtain ⟨found, wholeErrors, ownErrors⟩ := cutAfter.errors
  exact ⟨found, ownResult, ownAfter, wholeErrors, ownEnded, ownErrors⟩

end Parse

/-- Whatever the grammar derives within some levels, it derives within more. -/
theorem Grammar.Expression.mono
    {room more first next : Nat}
    {tokens : List Token}
    {value : Expr}
    (derived : Expression room first tokens value next)
    (notLess : room ≤ more) :
    Expression more first tokens value next := by
  obtain ⟨read, clean⟩ := Parse.expression_accepts room derived [] (.endOfInput 1) #[] rfl
  have readDeeper := Parse.extends_expression notLess _ _ _ read
  obtain ⟨used, split, found⟩ := (Parse.expression_follows more).sound
    (Parse.reads_of_no_errors rfl readDeeper rfl)
  rw [List.append_nil, List.append_nil] at split
  cases split
  exact found

end TreeWalk
