import TreeWalk.Proofs.Grammar.FirstToken

/-!
# What the readers read is grammatical

A reader follows a rule when everything that it reads without errors is derived
by the rule.  What a reader finds may depend on the tokens after those that it
reads, so a rule is given these as well: an `if` without an `else` is only found
where no `else` follows.  The lemmas say this of each reader in turn, from the
basic ones up to the reader of programs.
-/

namespace TreeWalk
namespace Parse

open Grammar

/-- A syntactic category that may depend on the tokens that follow. -/
abbrev Lookahead (α : Type) := List Token -> Phrase α

/-- Everything that a reader reads without errors is derived by a rule. -/
structure Follows {α : Type} (reader : Parse α) (rule : Lookahead α) : Prop where
  keeps : Keeps reader
  sound : ∀ ⦃before result after⦄, Reads reader before result after ->
    ∃ tokens, before.rest = tokens ++ after.rest ∧
      rule after.rest before.nextId tokens result after.nextId

/-- What is read for one rule and then, depending on the result, for another. -/
def Lookahead.andThen
    {α β : Type}
    (one : Lookahead α)
    (other : α -> Lookahead β) : Lookahead β :=
  fun rest first tokens result next =>
    ∃ middleResult middle firstTokens secondTokens,
      tokens = firstTokens ++ secondTokens ∧
        one (secondTokens ++ rest) first firstTokens middleResult middle ∧
        other middleResult rest middle secondTokens result next

/-- A result for which nothing is read. -/
def Lookahead.nothing {α : Type} (wanted : α) : Lookahead α :=
  fun _ first tokens result next => tokens = [] ∧ result = wanted ∧ next = first

variable {α β : Type}

namespace Follows

/-- More may be admitted of what is read. -/
theorem mono
    {reader : Parse α}
    {rule weaker : Lookahead α}
    (follows : Follows reader rule)
    (implies : ∀ ⦃rest first tokens result next⦄,
      rule rest first tokens result next -> weaker rest first tokens result next) :
    Follows reader weaker where
  keeps := follows.keeps
  sound := by
    intro before result after reads
    obtain ⟨tokens, split, derived⟩ := follows.sound reads
    exact ⟨tokens, split, implies derived⟩

/-- A result that is found without reading anything follows the rule that says so. -/
theorem pure (wanted : α) : Follows (pure wanted : Parse α) (.nothing wanted) where
  keeps := keeps_pure wanted
  sound := by
    intro before result after reads
    obtain ⟨rfl, rfl⟩ := reads_pure_iff.mp reads
    exact ⟨[], rfl, rfl, rfl, rfl⟩

/-- Two readers follow their rules one after the other. -/
theorem bind
    {reader : Parse α}
    {continuation : α -> Parse β}
    {rule : Lookahead α}
    {rules : α -> Lookahead β}
    (one : Follows reader rule)
    (other : ∀ result, Follows (continuation result) (rules result)) :
    Follows (reader >>= continuation) (rule.andThen rules) where
  keeps := one.keeps.bind fun result => (other result).keeps
  sound := by
    intro before result after reads
    obtain ⟨middleResult, middle, firstReads, secondReads⟩ :=
      (reads_bind_iff one.keeps fun result => (other result).keeps).mp reads
    obtain ⟨firstTokens, firstSplit, firstDerived⟩ := one.sound firstReads
    obtain ⟨secondTokens, secondSplit, secondDerived⟩ := (other middleResult).sound secondReads
    refine ⟨firstTokens ++ secondTokens, ?_, middleResult, middle.nextId, firstTokens,
      secondTokens, rfl, ?_, secondDerived⟩
    · rw [firstSplit, secondSplit, List.append_assoc]
    · rw [← secondSplit]
      exact firstDerived

/-- A failure follows every rule. -/
theorem fail
    {fault : SyntaxFault} :
    Follows (fail fault : Parse α) (fun _ _ _ _ _ => False) where
  keeps := keeps_fail fault
  sound := by
    intro before result after reads
    exact absurd reads not_reads_fail

end Follows

/-- What `acceptIf` finds: an admitted token, or nothing where none follows. -/
def Lookahead.accepted (admitted : Token.Kind -> Bool) : Lookahead (Option Token) :=
  fun rest first tokens found next =>
    next = first ∧
      match found with
      | some token => tokens = [token] ∧ admitted token.kind = true
      | none => tokens = [] ∧ nextIs admitted rest = false

/-- A token is read only if it is admitted. -/
theorem acceptIf_follows (admitted : Token.Kind -> Bool) :
    Follows (acceptIf admitted) (.accepted admitted) where
  keeps := keeps_acceptIf admitted
  sound := by
    intro before result after reads
    cases result with
    | none =>
      obtain ⟨absent, rfl⟩ := reads_acceptIf_none_iff.mp reads
      exact ⟨[], rfl, rfl, rfl, absent⟩
    | some token =>
      obtain ⟨rest, shape, admits, rfl⟩ := reads_acceptIf_some_iff.mp reads
      exact ⟨[token], shape, rfl, rfl, admits⟩

/-- A token that is read is of the expected kind. -/
theorem expect_follows (kind : Token.Kind) (what : String) :
    Follows (expect kind what) (fun _ => Terminal kind) where
  keeps := keeps_expect kind what
  sound := by
    intro before result after reads
    obtain ⟨rest, shape, hasKind, rfl⟩ := reads_expect_iff.mp reads
    exact ⟨[result], shape, .token hasKind⟩

/-- Looking at the next token derives nothing. -/
theorem check_follows (kind : Token.Kind) :
    Follows (check kind)
      (fun rest first tokens found next =>
        tokens = [] ∧ next = first ∧ found = nextIs (· == kind) rest) where
  keeps := keeps_check kind
  sound := by
    intro before result after reads
    obtain ⟨rfl, rfl⟩ := reads_check_iff.mp reads
    exact ⟨[], rfl, rfl, rfl, rfl⟩

/-- Looking for the end derives nothing. -/
theorem atEnd_follows :
    Follows atEnd
      (fun rest first tokens found next => tokens = [] ∧ next = first ∧ found = rest.isEmpty) where
  keeps := keeps_atEnd
  sound := by
    intro before result after reads
    obtain ⟨rfl, rfl⟩ := reads_atEnd_iff.mp reads
    exact ⟨[], rfl, rfl, rfl, rfl⟩

/-- A reference has the next number. -/
theorem freshReference_follows (name : Token) :
    Follows (freshReference name)
      (fun _ first tokens result next =>
        tokens = [] ∧ result = ⟨first, name⟩ ∧ next = first + 1) where
  keeps := keeps_freshReference name
  sound := by
    intro before result after reads
    obtain ⟨rfl, rfl⟩ := reads_freshReference_iff.mp reads
    exact ⟨[], rfl, rfl, rfl, rfl⟩

/-- An error that is noted follows every rule, since nothing is read without it. -/
theorem report_follows (token : Token) (fault : SyntaxFault) (rule : Lookahead Unit) :
    Follows (report token fault) rule where
  keeps := keeps_report token fault
  sound := by
    intro before result after reads
    exact absurd reads not_reads_report

/-- Extending a result step by step follows a rule that holds of the start and
is kept by each step.  The steps end where `ended` holds. -/
theorem Follows.extend
    {step : α -> Parse (Option α)}
    {rules : α -> Lookahead (Option α)}
    {start : α}
    (extended : Phrase α)
    (ended : List Token -> Prop)
    (steps : ∀ result, Follows (step result) (rules result))
    (begins : ∀ first, extended first [] start first)
    (consumes : ∀ ⦃result rest first tokens longer next⦄,
      rules result rest first tokens (some longer) next -> tokens ≠ [])
    (goesOn : ∀ ⦃rest first middle next tokens moreTokens result longer⦄,
      extended first tokens result middle ->
      rules result rest middle moreTokens (some longer) next ->
      extended first (tokens ++ moreTokens) longer next)
    (stops : ∀ ⦃result rest first next tokens⦄, rules result rest first tokens none next ->
      tokens = [] ∧ next = first ∧ ended rest)
    (ranOut : ended []) :
    Follows (Parse.extend step start)
      (fun rest first tokens result next => extended first tokens result next ∧ ended rest) where
  keeps := keeps_extend (fun result => (steps result).keeps) start
  sound := by
    intro before result after reads
    have shrinks : ∀ ⦃start result before after⦄,
        Reads (step start) before (some result) after ->
          after.rest.length < before.rest.length := by
      intro start result before after reads
      obtain ⟨tokens, split, derived⟩ := (steps start).sound reads
      have positive := List.length_pos_iff.mpr (consumes derived)
      rw [split, List.length_append]
      omega
    obtain ⟨middle, taken, finished⟩ :=
      steps_of_reads_extend (fun result => (steps result).keeps) shrinks reads
    have derived : ∃ tokens, before.rest = tokens ++ middle.rest ∧
        extended before.nextId tokens result middle.nextId := by
      -- The induction is on the steps taken, so nothing may be known of the last one.
      clear finished reads
      induction taken with
      | none => exact ⟨[], rfl, begins _⟩
      | more _ last _ inductionHypothesis =>
        obtain ⟨tokens, split, soFar⟩ := inductionHypothesis
        obtain ⟨moreTokens, moreSplit, more⟩ := (steps _).sound last
        refine ⟨tokens ++ moreTokens, ?_, goesOn soFar more⟩
        rw [split, moreSplit, List.append_assoc]
    obtain ⟨tokens, split, extendedSoFar⟩ := derived
    rcases finished with last | ⟨rfl, none⟩
    · obtain ⟨lastTokens, lastSplit, lastDerived⟩ := (steps result).sound last
      obtain ⟨rfl, sameId, ends⟩ := stops lastDerived
      rw [List.nil_append] at lastSplit
      exact ⟨tokens, by rw [split, lastSplit], by rw [sameId]; exact extendedSoFar, ends⟩
    · exact ⟨tokens, split, extendedSoFar, by rw [none]; exact ranOut⟩

/-- A phrase that is begun by one rule and grows step by step. -/
theorem Follows.growing
    {operand : Parse α}
    {begun whole : Phrase α}
    {step : α -> Parse (Option α)}
    {rules : α -> Lookahead (Option α)}
    (operands : Follows operand fun _ => begun)
    (steps : ∀ result, Follows (step result) (rules result))
    (begins : ∀ ⦃first tokens result next⦄,
      begun first tokens result next -> whole first tokens result next)
    (consumes : ∀ ⦃result rest first tokens longer next⦄,
      rules result rest first tokens (some longer) next -> tokens ≠ [])
    (grows : ∀ ⦃rest first middle next tokens moreTokens result longer⦄,
      whole first tokens result middle ->
      rules result rest middle moreTokens (some longer) next ->
      whole first (tokens ++ moreTokens) longer next)
    (stops : ∀ ⦃result rest first next tokens⦄, rules result rest first tokens none next ->
      tokens = [] ∧ next = first) :
    Follows (operand >>= Parse.extend step) fun _ => whole := by
  apply Follows.mono
  · apply operands.bind
    intro start
    -- what the steps add is added to any phrase that the start is read from
    apply Follows.extend
      (fun first tokens result next => ∀ origin before, whole origin before start first ->
        whole origin (before ++ tokens) result next)
      (fun _ => True) steps
    · intro first origin before isWhole
      rwa [List.append_nil]
    · exact consumes
    · intro rest first middle next tokens moreTokens result longer soFar more origin before isWhole
      rw [← List.append_assoc]
      exact grows (soFar origin before isWhole) more
    · intro result rest first next tokens stopped
      exact ⟨(stops stopped).1, (stops stopped).2, trivial⟩
    · trivial
  · rintro rest first tokens result next
      ⟨start, middle, firstTokens, others, rfl, isBegun, extended, -⟩
    exact extended first firstTokens (begins isBegun)

/-- Go on in one of two ways, depending on whether an admitted token is read. -/
theorem Follows.ifAccepted
    {admitted : Token.Kind -> Bool}
    {continuation : Option Token -> Parse β}
    {absent : Lookahead β}
    {present : Token -> Lookahead β}
    (whenAbsent : Follows (continuation none) absent)
    (whenPresent : ∀ token, Follows (continuation (some token)) (present token)) :
    Follows (acceptIf admitted >>= continuation)
      (fun rest first tokens result next =>
        (nextIs admitted (tokens ++ rest) = false ∧ absent rest first tokens result next) ∨
          ∃ token others, tokens = token :: others ∧ admitted token.kind = true ∧
            present token rest first others result next) := by
  have continued : ∀ found, Follows (continuation found)
      (found.elim absent present) := by
    intro found
    cases found with
    | none => exact whenAbsent
    | some token => exact whenPresent token
  refine ((acceptIf_follows admitted).bind continued).mono ?_
  rintro rest first tokens result next
    ⟨found, middle, firstTokens, others, rfl, ⟨rfl, accepted⟩, derived⟩
  cases found with
  | none =>
    obtain ⟨rfl, isAbsent⟩ := accepted
    exact .inl ⟨isAbsent, derived⟩
  | some token =>
    obtain ⟨rfl, admits⟩ := accepted
    exact .inr ⟨token, others, rfl, admits, derived⟩

/-- Go on in one of two ways, depending on the kind of the next token. -/
theorem Follows.ifNext
    {kind : Token.Kind}
    {continuation : Bool -> Parse β}
    {whenOther whenNext : Lookahead β}
    (other : Follows (continuation false) whenOther)
    (same : Follows (continuation true) whenNext) :
    Follows (check kind >>= continuation)
      (fun rest first tokens result next =>
        (nextIs (· == kind) (tokens ++ rest) = false ∧ whenOther rest first tokens result next) ∨
          (nextIs (· == kind) (tokens ++ rest) = true ∧
            whenNext rest first tokens result next)) := by
  have continued : ∀ found, Follows (continuation found)
      (bif found then whenNext else whenOther) := by
    intro found
    cases found with
    | false => exact other
    | true => exact same
  refine ((check_follows kind).bind continued).mono ?_
  rintro rest first tokens result next
    ⟨found, middle, firstTokens, others, rfl, ⟨rfl, rfl, isNext⟩, derived⟩
  rw [List.nil_append]
  cases found with
  | false => exact .inl ⟨isNext.symm, derived⟩
  | true => exact .inr ⟨isNext.symm, derived⟩

/-- Go on in one of two ways, depending on what has been found out. -/
theorem Follows.branch
    {yes no : Parse α}
    {whenTrue whenFalse : Lookahead α}
    (decision : Bool)
    (one : Follows yes whenTrue)
    (other : Follows no whenFalse) :
    Follows (if decision = true then yes else no)
      (fun rest first tokens result next =>
        (decision = true ∧ whenTrue rest first tokens result next) ∨
          (decision = false ∧ whenFalse rest first tokens result next)) := by
  cases decision with
  | true => exact one.mono fun _ _ _ _ _ derived => .inl ⟨rfl, derived⟩
  | false => exact other.mono fun _ _ _ _ _ derived => .inr ⟨rfl, derived⟩

/-- Without an error, there is nothing to recover from. -/
theorem Follows.recovering
    {rule : Parse Stmt}
    {phrase : Lookahead Stmt}
    (follows : Follows rule phrase) :
    Follows (recovering rule)
      (fun rest first tokens result next => ∃ statement, result = some statement ∧
        phrase rest first tokens statement next) where
  keeps := keeps_recovering follows.keeps
  sound := by
    intro before result after reads
    obtain ⟨statement, rfl, ruleReads⟩ := (reads_recovering_iff follows.keeps).mp reads
    obtain ⟨tokens, split, derived⟩ := follows.sound ruleReads
    exact ⟨tokens, split, statement, rfl, derived⟩

/-! ## Lists -/

/-- Items that are read one after the other, until there is no further one. -/
theorem repeated_follows
    {step : Array α -> Parse (Option (Array α))}
    {phrase : Phrase α}
    (ended : List Token -> Prop)
    (ranOut : ended [])
    (nonempty : ∀ ⦃first tokens result next⦄, phrase first tokens result next -> tokens ≠ [])
    (steps : ∀ found, Follows (step found) fun rest first tokens result next =>
      match result with
      | none => tokens = [] ∧ next = first ∧ ended rest
      | some longer => ∃ one, longer = found.push one ∧ phrase first tokens one next) :
    Follows
      (do
        let found ← extend step #[]
        return found.toList)
      (fun rest first tokens result next =>
        Repeated phrase first tokens result next ∧ ended rest) := by
  apply Follows.mono
  · apply Follows.bind
    · apply Follows.extend
        (fun first tokens (found : Array α) next =>
          Repeated phrase first tokens found.toList next)
        ended steps
      · intro first
        exact .none
      · rintro found rest first tokens longer next ⟨one, -, derived⟩
        exact nonempty derived
      · rintro rest first middle next tokens more found longer soFar ⟨one, rfl, derived⟩
        rw [Array.toList_push]
        exact .more soFar derived
      · rintro found rest first next tokens ends
        exact ends
      · exact ranOut
    · intro found
      exact Follows.pure found.toList
  · rintro rest first tokens result next
      ⟨found, _, _, _, rfl, ⟨derived, ends⟩, rfl, rfl, rfl⟩
    rw [List.append_nil]
    exact ⟨derived, ends⟩

/-- One more item is read after a comma, and the reader would complain if there
were too many items already. -/
theorem nextItem_follows
    {what : String}
    {item : Parse α}
    {phrase : Phrase α}
    (items : Follows item fun _ => phrase)
    (found : Array α) :
    Follows
      (if maxArity ≤ found.size then do
          let _ ← reportNext (.tooMany what)
          return some (found.push (← item))
        else do
          return some (found.push (← item)))
      (fun _ first tokens result next =>
        found.size < maxArity ∧
          ∃ one, result = some (found.push one) ∧ phrase first tokens one next) := by
  have pushed := items.bind fun one => Follows.pure (some (found.push one))
  by_cases full : maxArity ≤ found.size
  · rw [if_pos full]
    refine ⟨(keeps_reportNext _).bind fun _ => pushed.keeps, ?_⟩
    intro before result after reads
    obtain ⟨_, _, reported, _⟩ :=
      (reads_bind_iff (keeps_reportNext _) fun _ => pushed.keeps).mp reads
    exact absurd reported not_reads_reportNext
  · rw [if_neg full]
    refine pushed.mono ?_
    rintro rest first tokens result next ⟨one, middle, oneTokens, _, rfl, derived, rfl, rfl, rfl⟩
    rw [List.append_nil]
    exact ⟨Nat.lt_of_not_le full, one, rfl, derived⟩

/-- A list with commas is derived from its items, and is not too long. -/
theorem commaSeparated_follows
    {what : String}
    {item : Parse α}
    {phrase : Phrase α}
    (items : Follows item fun _ => phrase) :
    Follows (commaSeparated what item)
      (fun _ first tokens result next =>
        Separated phrase first tokens result next ∧ result.length ≤ maxArity) := by
  apply Follows.mono
  · apply items.bind
    intro start
    apply Follows.bind
    · -- The phrase of the loop: items that follow a first one, which was read from any start.
      apply Follows.extend
        (fun first tokens (found : Array α) next => ∀ origin before,
          phrase origin before start first ->
            Separated phrase origin (before ++ tokens) found.toList next ∧
              found.size ≤ maxArity)
        (fun _ => True)
      · intro found
        apply Follows.ifAccepted
        · exact Follows.pure none
        · intro comma
          exact nextItem_follows items found
      · intro first origin before derived
        rw [List.append_nil]
        exact ⟨.single derived, by simp [maxArity]⟩
      · rintro found rest first tokens longer next
          (⟨-, -, impossible, -⟩ | ⟨token, others, rfl, -⟩)
        · cases impossible
        · exact List.cons_ne_nil _ _
      · rintro rest first middle next tokens more found longer soFar
          (⟨-, -, impossible, -⟩ |
            ⟨comma, others, rfl, isComma, notFull, one, same, derived⟩)
        · cases impossible
        · cases same
          intro origin before start
          obtain ⟨separated, -⟩ := soFar origin before start
          rw [← List.append_assoc, Array.toList_push, Array.size_push]
          exact ⟨.more separated (eq_of_beq isComma) derived, notFull⟩
      · rintro found rest first next tokens
          (⟨-, rfl, -, rfl⟩ | ⟨_, _, rfl, -, -, _, impossible, -⟩)
        · exact ⟨rfl, rfl, trivial⟩
        · cases impossible
      · trivial
    · intro found
      exact Follows.pure found.toList
  · rintro rest first tokens result next
      ⟨start, middle, firstTokens, _, rfl, derived, found, _, others, _, rfl, ⟨extended, -⟩,
        rfl, rfl, rfl⟩
    rw [List.append_nil]
    exact extended first firstTokens derived

/-- So is a list in parentheses. -/
theorem parenthesized_follows
    {what : String}
    {item : Parse α}
    {phrase : Phrase α}
    (items : Follows item fun _ => phrase) :
    Follows (parenthesized what item) (fun _ => Listed phrase) := by
  have closing : ∀ found : List α, Follows
      (do
        let paren ← expect (.symbol .rightParen) ("')' after " ++ what)
        return (found, paren))
      (fun _ first tokens result next => ∃ paren : Token, paren.kind = .symbol .rightParen ∧
        tokens = [paren] ∧ result = (found, paren) ∧ next = first) := by
    intro found
    refine ((expect_follows _ _).bind fun paren => Follows.pure (found, paren)).mono ?_
    rintro rest first tokens result next ⟨paren, _, _, _, rfl, ⟨hasKind⟩, rfl, rfl, rfl⟩
    exact ⟨paren, hasKind, rfl, rfl, rfl⟩
  apply Follows.mono
  · apply Follows.ifNext
    · exact (commaSeparated_follows items).bind closing
    · exact (Follows.pure []).bind closing
  · rintro rest first tokens result next
      (⟨-, found, middle, inner, last, rfl, ⟨separated, few⟩, paren, isParen, rfl, rfl, rfl⟩ |
        ⟨-, found, middle, inner, last, rfl, ⟨rfl, rfl, rfl⟩, paren, isParen, rfl, rfl, rfl⟩)
    · exact .some separated few isParen
    · exact .none isParen

/-! ## Expressions -/

/-- A chain of operators is derived if its operands are. -/
theorem leftAssociative_follows
    {isOperator : Token.Kind -> Bool}
    {operators : List Token.Kind}
    {combine : Expr -> Token -> Expr -> Expr}
    {operand : Parse Expr}
    {phrase : Phrase Expr}
    (listed : ∀ kind, isOperator kind = true -> kind ∈ operators)
    (operands : Follows operand fun _ => phrase) :
    Follows (leftAssociative isOperator combine operand)
      (fun _ => LeftAssociative operators combine phrase) := by
  apply Follows.growing operands
  · intro left
    apply Follows.ifAccepted
    · exact Follows.pure none
    · intro operator
      exact operands.bind fun right => Follows.pure (some (combine left operator right))
  · exact fun _ _ _ _ => .operand
  · rintro left rest first tokens longer next (⟨-, -, impossible, -⟩ | ⟨token, others, rfl, -⟩)
    · cases impossible
    · exact List.cons_ne_nil _ _
  · rintro rest first middle next tokens more left longer soFar
      (⟨-, -, impossible, -⟩ |
        ⟨operator, others, rfl, isOperator, right, last, rightTokens, _, rfl, derived, rfl, found,
          rfl⟩)
    · cases impossible
    · cases found
      rw [List.append_nil]
      exact .combined soFar (listed _ isOperator) derived
  · rintro left rest first next tokens
      (⟨-, rfl, -, rfl⟩ | ⟨_, _, rfl, -, _, _, _, _, _, _, _, impossible, _⟩)
    · exact ⟨rfl, rfl⟩
    · cases impossible

theorem isFactorOperator_mem (kind : Token.Kind) :
    isFactorOperator kind = true -> kind ∈ [.symbol .slash, .symbol .star] := by
  unfold isFactorOperator
  split <;> simp

theorem isTermOperator_mem (kind : Token.Kind) :
    isTermOperator kind = true -> kind ∈ [.symbol .minus, .symbol .plus] := by
  unfold isTermOperator
  split <;> simp

theorem isComparisonOperator_mem (kind : Token.Kind) :
    isComparisonOperator kind = true -> kind ∈
      [.symbol .greater, .symbol .greaterEqual, .symbol .less, .symbol .lessEqual] := by
  unfold isComparisonOperator
  split <;> simp

theorem isEqualityOperator_mem (kind : Token.Kind) :
    isEqualityOperator kind = true -> kind ∈ [.symbol .bangEqual, .symbol .equalEqual] := by
  unfold isEqualityOperator
  split <;> simp

theorem isUnaryOperator_mem (kind : Token.Kind) :
    isUnaryOperator kind = true -> kind ∈ [.symbol .bang, .symbol .minus] := by
  unfold isUnaryOperator
  split <;> simp

/-- Binary and logical expressions are derived, each rank within the next one. -/
theorem operatorRule_follows
    {unary : Parse Expr}
    {phrase : Phrase Expr}
    (operands : Follows unary fun _ => phrase) :
    Follows (operatorRule unary) (fun _ => LogicOr phrase) := by
  refine leftAssociative_follows (fun kind same => ?_) ?_
  · simpa using same
  refine leftAssociative_follows (fun kind same => ?_) ?_
  · simpa using same
  refine leftAssociative_follows isEqualityOperator_mem ?_
  refine leftAssociative_follows isComparisonOperator_mem ?_
  refine leftAssociative_follows isTermOperator_mem ?_
  exact leftAssociative_follows isFactorOperator_mem operands

/-- A grouping is derived behind its parenthesis. -/
theorem groupingRule_follows
    {expression : Parse Expr}
    {phrase : Phrase Expr}
    (inside : Follows expression fun _ => phrase) :
    Follows (groupingRule expression)
      (fun _ first tokens result next =>
        ∀ opening : Token, opening.kind = .symbol .leftParen ->
          Primary phrase first (opening :: tokens) result next) := by
  apply Follows.mono
  · exact inside.bind fun inner => (expect_follows _ _).bind fun _ =>
      Follows.pure (Expr.grouping inner)
  · rintro rest first tokens result next
      ⟨inner, middle, innerTokens, _, rfl, derived, closing, _, _, _, rfl, ⟨isClosing⟩,
        rfl, rfl, rfl⟩ opening isOpening
    exact .grouping isOpening derived isClosing

/-- A method of the superclass is derived behind its keyword. -/
theorem inheritedRule_follows
    (keyword : Token)
    (isKeyword : keyword.kind = .keyword .superWord)
    (phrase : Phrase Expr) :
    Follows (inheritedRule keyword)
      (fun _ first tokens result next => Primary phrase first (keyword :: tokens) result next) := by
  apply Follows.mono
  · exact (expect_follows _ _).bind fun _ => (expect_follows _ _).bind fun method =>
      (freshReference_follows keyword).bind fun reference =>
        Follows.pure (Expr.inherited reference method)
  · rintro rest first tokens result next
      ⟨dot, _, _, _, rfl, ⟨isDot⟩, method, _, _, _, rfl, ⟨isName⟩, reference, _, _, _, rfl,
        ⟨rfl, rfl, rfl⟩, rfl, rfl, rfl⟩
    exact .inherited isKeyword isDot isName

/-- What is read after the first token of a primary expression. -/
theorem afterPrimary_follows
    {expression : Parse Expr}
    {phrase : Phrase Expr}
    (inside : Follows expression fun _ => phrase)
    (token : Token) :
    Follows
      (match token.kind with
        | .keyword .falseWord => return .literal (.boolean false)
        | .keyword .trueWord => return .literal (.boolean true)
        | .keyword .nullWord => return .literal .null
        | .number value => return .literal (.number value)
        | .string contents => return .literal (.string contents)
        | .identifier => return .read (← freshReference token)
        | .keyword .thisWord => return .self (← freshReference token)
        | .keyword .superWord => inheritedRule token
        | _ => groupingRule expression)
      (fun _ first tokens result next => beginsPrimary token.kind = true ->
        Primary phrase first (token :: tokens) result next) := by
  have literal : ∀ value, literal? token.kind = some value ->
      Follows (Pure.pure (.literal value) : Parse Expr)
        (fun _ first tokens result next => beginsPrimary token.kind = true ->
          Primary phrase first (token :: tokens) result next) := by
    intro value found
    refine (Follows.pure (Expr.literal value)).mono ?_
    rintro rest first tokens result next ⟨rfl, rfl, rfl⟩ -
    exact .literal found
  split
  case h_1 shape => exact literal _ (by rw [shape]; rfl)
  case h_2 shape => exact literal _ (by rw [shape]; rfl)
  case h_3 shape => exact literal _ (by rw [shape]; rfl)
  case h_4 shape => exact literal _ (by rw [shape]; rfl)
  case h_5 shape => exact literal _ (by rw [shape]; rfl)
  case h_6 shape =>
    apply Follows.mono
    · exact (freshReference_follows token).bind fun reference => Follows.pure (Expr.read reference)
    · rintro rest first tokens result next ⟨_, _, _, _, rfl, ⟨rfl, rfl, rfl⟩, rfl, rfl, rfl⟩ -
      exact .name shape
  case h_7 shape =>
    apply Follows.mono
    · exact (freshReference_follows token).bind fun reference => Follows.pure (Expr.self reference)
    · rintro rest first tokens result next ⟨_, _, _, _, rfl, ⟨rfl, rfl, rfl⟩, rfl, rfl, rfl⟩ -
      exact .self shape
  case h_8 shape =>
    exact (inheritedRule_follows token shape phrase).mono fun _ _ _ _ _ derived _ => derived
  -- Of the other kinds only an opening parenthesis begins an operand.
  case h_9 =>
    refine (groupingRule_follows inside).mono ?_
    intro rest first tokens result next derived begins
    refine derived token ?_
    unfold beginsPrimary at begins
    split at begins <;> simp_all

/-- A primary expression is derived if the expression inside of it is. -/
theorem primaryRule_follows
    {expression : Parse Expr}
    {phrase : Phrase Expr}
    (inside : Follows expression fun _ => phrase) :
    Follows (primaryRule expression) (fun _ => Primary phrase) := by
  apply Follows.mono
  · apply Follows.ifAccepted
    · exact Follows.fail
    · intro token
      exact afterPrimary_follows inside token
  · rintro rest first tokens result next
      (⟨-, impossible⟩ | ⟨token, others, rfl, begins, derived⟩)
    · exact impossible.elim
    · exact derived begins

/-- So is a chain of calls and properties. -/
theorem callRule_follows
    {expression : Parse Expr}
    {phrase : Phrase Expr}
    (inside : Follows expression fun _ => phrase) :
    Follows (callRule expression) (fun _ => Call phrase) := by
  apply Follows.growing (primaryRule_follows inside)
  · intro callee
    apply Follows.ifAccepted
    · apply Follows.ifAccepted
      · exact Follows.pure none
      · intro dot
        exact (expect_follows _ _).bind fun name =>
          Follows.pure (some (Expr.property callee name))
    · intro opening
      exact (parenthesized_follows inside).bind fun listed =>
        Follows.pure (some (Expr.call callee listed.2 listed.1))
  · exact fun _ _ _ _ => .primary
  · rintro callee rest first tokens longer next
      (⟨-, ⟨-, -, impossible, -⟩ | ⟨token, others, rfl, -⟩⟩ | ⟨token, others, rfl, -⟩)
    · cases impossible
    · exact List.cons_ne_nil _ _
    · exact List.cons_ne_nil _ _
  · rintro rest first middle next tokens more callee longer soFar
      (⟨-, ⟨-, -, impossible, -⟩ |
          ⟨dot, others, rfl, isDot, name, _, _, _, rfl, ⟨isName⟩, rfl, found, rfl⟩⟩ |
        ⟨opening, others, rfl, isOpening, ⟨arguments, closing⟩, _, _, _, rfl, listed, rfl, found,
          rfl⟩)
    · cases impossible
    · cases found
      exact .property soFar (eq_of_beq isDot) isName
    · cases found
      rw [List.append_nil]
      exact .call soFar (eq_of_beq isOpening) listed
  · rintro callee rest first next tokens
      (⟨-, ⟨-, rfl, -, rfl⟩ | ⟨_, _, rfl, -, _, _, _, _, _, _, _, impossible, _⟩⟩ |
        ⟨_, _, rfl, -, _, _, _, _, _, _, _, impossible, _⟩)
    · exact ⟨rfl, rfl⟩
    · cases impossible
    · cases impossible

/-- So is a unary expression. -/
theorem unaryRule_follows
    {operand expression : Parse Expr}
    {operandPhrase expressionPhrase : Phrase Expr}
    (operands : Follows operand fun _ => operandPhrase)
    (inside : Follows expression fun _ => expressionPhrase) :
    Follows (unaryRule operand expression) (fun _ => Unary operandPhrase expressionPhrase) := by
  apply Follows.mono
  · apply Follows.ifAccepted
    · exact callRule_follows inside
    · intro operator
      exact operands.bind fun right => Follows.pure (Expr.unary operator right)
  · rintro rest first tokens result next
      (⟨-, derived⟩ |
        ⟨operator, others, rfl, isOperator, right, _, _, _, rfl, derived, rfl, rfl, rfl⟩)
    · exact .call derived
    · rw [List.append_nil]
      exact .operator (isUnaryOperator_mem _ isOperator) derived

/-- Whether an expression may stand on the left of an equals sign. -/
def isTarget : Expr -> Bool
  | .read _ => true
  | .property _ _ => true
  | _ => false

/-- A target is never made by an operator. -/
theorem operand_of_isTarget
    {operators : List Token.Kind}
    {combine : Expr -> Token -> Expr -> Expr}
    {phrase : Phrase Expr}
    (never : ∀ left operator right, isTarget (combine left operator right) = false)
    {first next : Nat}
    {tokens : List Token}
    {result : Expr}
    (derived : LeftAssociative operators combine phrase first tokens result next)
    (target : isTarget result = true) :
    phrase first tokens result next := by
  cases derived with
  | operand only => exact only
  | combined before isOperator after =>
    rw [never] at target
    cases target

/-- Whatever can be assigned to is a call expression, without any operator. -/
theorem call_of_isTarget
    {operand expression : Phrase Expr}
    {first next : Nat}
    {tokens : List Token}
    {result : Expr}
    (derived : LogicOr (Unary operand expression) first tokens result next)
    (target : isTarget result = true) :
    Call expression first tokens result next := by
  have logical : ∀ left operator right, isTarget (Expr.logical left operator right) = false :=
    fun _ _ _ => rfl
  have binary : ∀ left operator right, isTarget (Expr.binary left operator right) = false :=
    fun _ _ _ => rfl
  have conjunction := operand_of_isTarget logical derived target
  have equality := operand_of_isTarget logical conjunction target
  have comparison := operand_of_isTarget binary equality target
  have term := operand_of_isTarget binary comparison target
  have factor := operand_of_isTarget binary term target
  have unary := operand_of_isTarget binary factor target
  cases unary with
  | operator isOperator inside => cases target
  | call only => exact only

/-- The target of an assignment decides what kind of assignment it is. -/
theorem assignmentTo_follows
    (operand expression : Phrase Expr)
    (target : Expr)
    (equals : Token)
    (value : Expr) :
    Follows (assignmentTo target equals value)
      (fun _ last tokens result next => tokens = [] ∧
        ∀ first middle targetTokens valueTokens,
          equals.kind = .symbol .equal ->
          LogicOr (Unary operand expression) first targetTokens target middle ->
          expression middle valueTokens value last ->
          Assignment (Unary operand expression) expression first
            (targetTokens ++ equals :: valueTokens) result next) := by
  unfold assignmentTo
  split
  · rename_i reference
    apply Follows.mono
    · exact (freshReference_follows reference.name).bind fun fresh =>
        Follows.pure (Expr.assign fresh value)
    · rintro rest last tokens result next ⟨_, _, _, _, rfl, ⟨rfl, rfl, rfl⟩, rfl, rfl, rfl⟩
      refine ⟨rfl, fun first middle targetTokens valueTokens isEquals left right => ?_⟩
      cases call_of_isTarget left rfl with
      | primary only =>
        cases only with
        | name isName => exact .named isName isEquals right
  · rename_i object name
    refine (Follows.pure (Expr.setProperty object name value)).mono ?_
    rintro rest last tokens result next ⟨rfl, rfl, rfl⟩
    refine ⟨rfl, fun first middle targetTokens valueTokens isEquals left right => ?_⟩
    cases call_of_isTarget left rfl with
    | primary only => cases only
    | property before isDot isName =>
      rw [List.append_assoc]
      exact .property before isDot isName isEquals right
  · apply Follows.mono
    · exact (report_follows _ _ fun _ _ _ _ _ => False).bind fun _ => Follows.pure _
    · rintro rest last tokens result next ⟨_, _, _, _, _, impossible, _⟩
      exact impossible.elim

/-- An assignment is derived from its target and its value. -/
theorem assignmentRule_follows
    {operand expression : Parse Expr}
    {operandPhrase expressionPhrase : Phrase Expr}
    (operands : Follows operand fun _ => operandPhrase)
    (inside : Follows expression fun _ => expressionPhrase) :
    Follows (assignmentRule (unaryRule operand expression) expression)
      (fun _ => Assignment (Unary operandPhrase expressionPhrase) expressionPhrase) := by
  apply Follows.mono
  · apply (operatorRule_follows (unaryRule_follows operands inside)).bind
    intro left
    apply Follows.ifAccepted
    · exact Follows.pure left
    · intro equals
      exact inside.bind fun value =>
        assignmentTo_follows operandPhrase expressionPhrase left equals value
  · rintro rest first tokens result next
      ⟨left, middle, leftTokens, _, rfl, derived,
        ⟨-, rfl, rfl, rfl⟩ |
          ⟨equals, _, rfl, isEquals, value, _, valueTokens, _, rfl, right, rfl, assigned⟩⟩
    · rw [List.append_nil]
      exact .operators derived
    · rw [List.append_nil]
      exact assigned first middle leftTokens valueTokens (eq_of_beq isEquals) derived right

/-- Expressions and operands are derived, however deeply they are nested. -/
theorem expression_and_unaryOperand_follow (room : Nat) :
    Follows (expression room) (fun _ => Expression room) ∧
      Follows (unaryOperand room) (fun _ => Operand room) := by
  induction room with
  | zero => exact ⟨Follows.fail, Follows.fail⟩
  | succ room inductionHypothesis =>
    obtain ⟨inside, operands⟩ := inductionHypothesis
    exact ⟨assignmentRule_follows operands inside, unaryRule_follows operands inside⟩

/-- Every expression that is read without errors is derived by the grammar. -/
theorem expression_follows (room : Nat) :
    Follows (expression room) (fun _ => Expression room) :=
  (expression_and_unaryOperand_follow room).1

/-! ## Statements and declarations -/

/-- What a reader of statements finds.  It does not leave behind an `else` that
could have been taken. -/
def Lookahead.closed (statement : Bool -> Phrase Stmt) : Lookahead Stmt :=
  fun rest first tokens result next =>
    ∃ dangling, statement dangling first tokens result next ∧
      (dangling = true -> nextIs (· == .keyword .elseWord) rest = false)

/-- An expression statement is derived from its expression. -/
theorem expressionStatementRule_follows
    {expression : Parse Expr}
    {phrase : Phrase Expr}
    (inside : Follows expression fun _ => phrase) :
    Follows (expressionStatementRule expression) (fun _ => ExpressionStatement phrase) := by
  apply Follows.mono
  · exact inside.bind fun value => (expect_follows _ _).bind fun _ =>
      Follows.pure (Stmt.expression value)
  · rintro rest first tokens result next
      ⟨value, _, _, _, rfl, derived, semicolon, _, _, _, rfl, ⟨isSemicolon⟩, rfl, rfl, rfl⟩
    exact .mk derived isSemicolon

/-- A variable declaration is derived from its initializer. -/
theorem declareRule_follows
    {expression : Parse Expr}
    {phrase : Phrase Expr}
    (inside : Follows expression fun _ => phrase) :
    Follows (declareRule expression) (fun _ => VariableDeclaration phrase) := by
  have ending : ∀ name initializer, Follows
      (do
        let _ ← expect (.symbol .semicolon) "';' after variable declaration"
        return Stmt.declare name initializer) _ := fun name initializer =>
    (expect_follows _ _).bind fun _ => Follows.pure (Stmt.declare name initializer)
  apply Follows.mono
  · apply (expect_follows _ _).bind
    intro name
    apply Follows.ifAccepted
    · exact (Follows.pure none).bind fun initializer => ending name initializer
    · intro equals
      exact inside.bind fun value => (Follows.pure (some value)).bind fun initializer =>
        ending name initializer
  · rintro rest first tokens result next
      ⟨name, _, _, _, rfl, ⟨isName⟩,
        ⟨-, _, _, _, _, rfl, ⟨rfl, rfl, rfl⟩, semicolon, _, _, _, rfl, ⟨isSemicolon⟩,
            rfl, rfl, rfl⟩ |
          ⟨equals, _, rfl, isEquals, value, _, _, _, rfl, derived, _, _, _, _, rfl,
            ⟨rfl, rfl, rfl⟩, semicolon, _, _, _, rfl, ⟨isSemicolon⟩, rfl, rfl, rfl⟩⟩
    · exact .mk isName .none isSemicolon
    · exact .mk isName (.some (eq_of_beq isEquals) derived) isSemicolon

/-- An expression that may be missing is derived. -/
theorem optionalUnless_follows
    {kind : Token.Kind}
    {expression : Parse Expr}
    {phrase : Phrase Expr}
    (inside : Follows expression fun _ => phrase) :
    Follows (optionalUnless kind expression) (fun _ => Optional phrase) := by
  apply Follows.mono
  · apply Follows.ifNext
    · exact inside.bind fun value => Follows.pure (some value)
    · exact Follows.pure none
  · rintro rest first tokens result next
      (⟨-, value, _, _, _, rfl, derived, rfl, rfl, rfl⟩ | ⟨-, rfl, rfl, rfl⟩)
    · rw [List.append_nil]
      exact .some derived
    · exact .none

/-- What begins a loop is derived. -/
theorem forInitializerRule_follows
    {expression : Parse Expr}
    {phrase : Phrase Expr}
    (inside : Follows expression fun _ => phrase) :
    Follows (forInitializerRule expression) (fun _ => ForInitializer phrase) := by
  apply Follows.mono
  · apply Follows.ifAccepted
    · apply Follows.ifAccepted
      · exact (expressionStatementRule_follows inside).bind fun result => Follows.pure (some result)
      · intro word
        exact (declareRule_follows inside).bind fun result => Follows.pure (some result)
    · intro semicolon
      exact Follows.pure none
  · rintro rest first tokens result next
      (⟨-, ⟨-, _, _, _, _, rfl, derived, rfl, rfl, rfl⟩ |
          ⟨word, _, rfl, isWord, _, _, _, _, rfl, derived, rfl, rfl, rfl⟩⟩ |
        ⟨semicolon, _, rfl, isSemicolon, rfl, rfl, rfl⟩)
    · rw [List.append_nil]
      exact .expression derived
    · rw [List.append_nil]
      exact .variableDecl (eq_of_beq isWord) derived
    · exact .none (eq_of_beq isSemicolon)

section Statements

variable
  {expression : Parse Expr}
  {statement : Parse Stmt}
  {block : Parse (List Stmt)}
  {expressionPhrase : Phrase Expr}
  {statementPhrase : Bool -> Phrase Stmt}
  {blockPhrase : Phrase (List Stmt)}

/-- A print statement is derived behind its keyword. -/
theorem printRule_follows
    (word : Token)
    (isWord : word.kind = .keyword .printWord)
    (inside : Follows expression fun _ => expressionPhrase) :
    Follows (printRule expression)
      (fun _ first tokens result next =>
        Statement expressionPhrase statementPhrase blockPhrase false first
          (word :: tokens) result next) := by
  apply Follows.mono
  · exact inside.bind fun value => (expect_follows _ _).bind fun _ =>
      Follows.pure (Stmt.print value)
  · rintro rest first tokens result next
      ⟨value, _, _, _, rfl, derived, semicolon, _, _, _, rfl, ⟨isSemicolon⟩, rfl, rfl, rfl⟩
    exact .print isWord derived isSemicolon

/-- So is a return statement. -/
theorem returnRule_follows
    (word : Token)
    (isWord : word.kind = .keyword .returnWord)
    (inside : Follows expression fun _ => expressionPhrase) :
    Follows (returnRule word expression)
      (fun _ first tokens result next =>
        Statement expressionPhrase statementPhrase blockPhrase false first
          (word :: tokens) result next) := by
  apply Follows.mono
  · exact (optionalUnless_follows inside).bind fun value => (expect_follows _ _).bind fun _ =>
      Follows.pure (Stmt.returns word value)
  · rintro rest first tokens result next
      ⟨value, _, _, _, rfl, derived, semicolon, _, _, _, rfl, ⟨isSemicolon⟩, rfl, rfl, rfl⟩
    exact .returns isWord derived isSemicolon

/-- So is a loop. -/
theorem whileRule_follows
    (word : Token)
    (isWord : word.kind = .keyword .whileWord)
    (inside : Follows expression fun _ => expressionPhrase)
    (bodies : Follows statement (.closed statementPhrase)) :
    Follows (whileRule expression statement)
      (fun rest first tokens result next =>
        Lookahead.closed (Statement expressionPhrase statementPhrase blockPhrase) rest first
          (word :: tokens) result next) := by
  apply Follows.mono
  · exact (expect_follows _ _).bind fun _ => inside.bind fun condition =>
      (expect_follows _ _).bind fun _ => bodies.bind fun body =>
        Follows.pure (Stmt.loop condition body)
  · rintro rest first tokens result next
      ⟨opening, _, _, _, rfl, ⟨isOpening⟩, condition, _, _, _, rfl, derived, closing, _, _, _,
        rfl, ⟨isClosing⟩, body, _, bodyTokens, _, rfl, ⟨dangling, repeated, noElse⟩, rfl, rfl, rfl⟩
    rw [List.append_nil]
    exact ⟨dangling, .loop isWord isOpening derived isClosing repeated, noElse⟩

/-- So is a loop with a header, as the loop that it stands for. -/
theorem forRule_follows
    (word : Token)
    (isWord : word.kind = .keyword .forWord)
    (inside : Follows expression fun _ => expressionPhrase)
    (bodies : Follows statement (.closed statementPhrase)) :
    Follows (forRule expression statement)
      (fun rest first tokens result next =>
        Lookahead.closed (Statement expressionPhrase statementPhrase blockPhrase) rest first
          (word :: tokens) result next) := by
  apply Follows.mono
  · exact (expect_follows _ _).bind fun _ =>
      (forInitializerRule_follows inside).bind fun initializer =>
      (optionalUnless_follows inside).bind fun condition =>
      (expect_follows _ _).bind fun _ =>
      (optionalUnless_follows inside).bind fun increment =>
      (expect_follows _ _).bind fun _ =>
      bodies.bind fun body =>
        Follows.pure (forLoop initializer condition increment body)
  · rintro rest first tokens result next
      ⟨opening, _, _, _, rfl, ⟨isOpening⟩, initializer, _, _, _, rfl, start, condition, _, _, _,
        rfl, test, semicolon, _, _, _, rfl, ⟨isSemicolon⟩, increment, _, _, _, rfl, step,
        closing, _, _, _, rfl, ⟨isClosing⟩, body, _, bodyTokens, _, rfl,
        ⟨dangling, repeated, noElse⟩, rfl, rfl, rfl⟩
    rw [List.append_nil]
    exact ⟨dangling,
      .forLoop isWord isOpening start test isSemicolon step isClosing repeated, noElse⟩

/-- A conditional is derived behind its keyword, and its `else` belongs to the nearest
one. -/
theorem conditionalRule_follows
    (word : Token)
    (isWord : word.kind = .keyword .ifWord)
    (inside : Follows expression fun _ => expressionPhrase)
    (branches : Follows statement (.closed statementPhrase)) :
    Follows (conditionalRule expression statement)
      (fun rest first tokens result next =>
        Lookahead.closed (Statement expressionPhrase statementPhrase blockPhrase) rest first
          (word :: tokens) result next) := by
  apply Follows.mono
  · apply (expect_follows _ _).bind
    intro opening
    apply inside.bind
    intro condition
    apply (expect_follows _ _).bind
    intro closing
    apply branches.bind
    intro thenBranch
    apply Follows.ifAccepted
    · exact Follows.pure (Stmt.conditional condition thenBranch none)
    · intro otherwise
      exact branches.bind fun elseBranch =>
        Follows.pure (Stmt.conditional condition thenBranch (some elseBranch))
  · rintro rest first tokens result next
      ⟨opening, _, _, _, rfl, ⟨isOpening⟩, condition, _, _, _, rfl, derived, closing, _, _, _,
        rfl, ⟨isClosing⟩, thenBranch, _, thenTokens, _, rfl, ⟨dangling, whenTrue, thenNoElse⟩,
        ⟨noElse, rfl, rfl, rfl⟩ |
          ⟨otherwise, _, rfl, isOtherwise, elseBranch, _, elseTokens, _, rfl,
            ⟨elseDangling, whenFalse, elseNoElse⟩, rfl, rfl, rfl⟩⟩
    · rw [List.append_nil]
      exact ⟨true, .conditional isWord isOpening derived isClosing whenTrue, fun _ => noElse⟩
    · have closed : dangling = false := by
        cases dangling with
        | false => rfl
        | true =>
          have absent := thenNoElse rfl
          simp only [List.cons_append, nextIs_cons] at absent
          rw [isOtherwise] at absent
          cases absent
      subst closed
      rw [List.append_nil]
      exact ⟨elseDangling,
        .alternative isWord isOpening derived isClosing whenTrue (eq_of_beq isOtherwise) whenFalse,
        elseNoElse⟩

/-- What is read after the first token of a statement that is no expression. -/
theorem afterStatementWord_follows
    (inside : Follows expression fun _ => expressionPhrase)
    (statements : Follows statement (.closed statementPhrase))
    (blocks : Follows block fun _ => blockPhrase)
    (token : Token) :
    Follows
      (match token.kind with
        | .keyword .forWord => forRule expression statement
        | .keyword .ifWord => conditionalRule expression statement
        | .keyword .printWord => printRule expression
        | .keyword .returnWord => returnRule token expression
        | .keyword .whileWord => whileRule expression statement
        | _ => return .block (← block))
      (fun rest first tokens result next => beginsProperStatement token.kind = true ->
        Lookahead.closed (Statement expressionPhrase statementPhrase blockPhrase) rest first
          (token :: tokens) result next) := by
  split
  case h_1 shape =>
    exact (forRule_follows token shape inside statements).mono fun _ _ _ _ _ derived _ => derived
  case h_2 shape =>
    exact (conditionalRule_follows token shape inside statements).mono
      fun _ _ _ _ _ derived _ => derived
  case h_3 shape =>
    exact (printRule_follows token shape inside).mono
      fun _ _ _ _ _ derived _ => ⟨false, derived, Bool.noConfusion⟩
  case h_4 shape =>
    exact (returnRule_follows token shape inside).mono
      fun _ _ _ _ _ derived _ => ⟨false, derived, Bool.noConfusion⟩
  case h_5 shape =>
    exact (whileRule_follows token shape inside statements).mono fun _ _ _ _ _ derived _ => derived
  case h_6 =>
    apply Follows.mono
    · exact blocks.bind fun body => Follows.pure (Stmt.block body)
    · rintro rest first tokens result next ⟨body, _, _, _, rfl, derived, rfl, rfl, rfl⟩ begins
      have isOpening : token.kind = .symbol .leftBrace := by
        unfold beginsProperStatement at begins
        split at begins <;> simp_all
      rw [List.append_nil]
      exact ⟨false, .block isOpening derived, Bool.noConfusion⟩

/-- A statement is derived from its parts. -/
theorem statementRule_follows
    (inside : Follows expression fun _ => expressionPhrase)
    (statements : Follows statement (.closed statementPhrase))
    (blocks : Follows block fun _ => blockPhrase) :
    Follows (statementRule expression statement block)
      (.closed (Statement expressionPhrase statementPhrase blockPhrase)) := by
  apply Follows.mono
  · apply Follows.ifAccepted
    · exact expressionStatementRule_follows inside
    · intro token
      exact afterStatementWord_follows inside statements blocks token
  · rintro rest first tokens result next (⟨-, derived⟩ | ⟨token, others, rfl, begins, derived⟩)
    · exact ⟨false, .expression derived, Bool.noConfusion⟩
    · exact derived begins

/-- Parameters have no numbers. -/
theorem listed_identifiers_next
    {first next : Nat}
    {tokens : List Token}
    {result : List Token × Token}
    (listed : Listed (Terminal .identifier) first tokens result next) :
    next = first := by
  have separated : ∀ {first next tokens items},
      Separated (Terminal .identifier) first tokens items next -> next = first := by
    intro first next tokens items derived
    induction derived with
    | single only =>
      cases only
      rfl
    | more _ _ one inductionHypothesis =>
      cases one
      exact inductionHypothesis
  cases listed with
  | none => rfl
  | some inner => exact separated inner

/-- A function is derived from its parameters and its body. -/
theorem functionRule_follows
    (what : String)
    (blocks : Follows block fun _ => blockPhrase) :
    Follows (functionRule what block) (fun _ => Function blockPhrase) := by
  apply Follows.mono
  · exact (expect_follows _ _).bind fun name => (expect_follows _ _).bind fun _ =>
      (parenthesized_follows (expect_follows _ _)).bind fun listed =>
      (expect_follows _ _).bind fun _ => blocks.bind fun body =>
        Follows.pure (⟨name, listed.1, body⟩ : FunctionDecl)
  · rintro rest first tokens result next
      ⟨name, _, _, _, rfl, ⟨isName⟩, opening, _, _, _, rfl, ⟨isOpening⟩, ⟨parameters, closing⟩,
        middle, _, _, rfl, listed, brace, _, _, _, rfl, ⟨isBrace⟩, body, _, bodyTokens, _, rfl,
        derived, rfl, rfl, rfl⟩
    obtain rfl := listed_identifiers_next listed
    rw [List.append_nil]
    exact .mk isName isOpening listed isBrace derived

/-- The methods of a class are derived one after the other. -/
theorem methodsRule_follows
    (blocks : Follows block fun _ => blockPhrase) :
    Follows (methodsRule block) (fun _ => Repeated (Function blockPhrase)) := by
  apply Follows.mono
  · apply repeated_follows (fun _ => True) trivial
      (fun _ _ _ _ derived => (function_begins blockPhrase).ne_nil derived)
    intro found
    apply Follows.mono
    · apply (check_follows _).bind
      intro closes
      apply atEnd_follows.bind
      intro ends
      apply Follows.branch (closes || ends)
      · exact Follows.pure none
      · exact (functionRule_follows "method" blocks).bind fun method =>
          Follows.pure (some (found.push method))
    · rintro rest first tokens result next
        ⟨closes, _, _, _, rfl, ⟨rfl, rfl, -⟩, ends, _, _, _, rfl, ⟨rfl, rfl, -⟩,
          ⟨-, rfl, rfl, rfl⟩ | ⟨-, method, _, _, _, rfl, derived, rfl, rfl, rfl⟩⟩
      · exact ⟨rfl, rfl, trivial⟩
      · simp only [List.nil_append, List.append_nil]
        exact ⟨method, rfl, derived⟩
  · intro rest first tokens result next derived
    exact derived.1

/-- A superclass is derived, if there is one. -/
theorem superclassRule_follows : Follows superclassRule (fun _ => Superclass) := by
  apply Follows.mono
  · apply Follows.ifAccepted
    · exact Follows.pure none
    · intro less
      exact (expect_follows _ _).bind fun name =>
        (freshReference_follows name).bind fun reference => Follows.pure (some reference)
  · rintro rest first tokens result next
      (⟨-, rfl, rfl, rfl⟩ |
        ⟨less, _, rfl, isLess, name, _, _, _, rfl, ⟨isName⟩, _, _, _, _, rfl, ⟨rfl, rfl, rfl⟩,
          rfl, rfl, rfl⟩)
    · exact .none
    · exact .some (eq_of_beq isLess) isName

/-- A class is derived behind its keyword. -/
theorem classRule_follows
    (word : Token)
    (isWord : word.kind = .keyword .classWord)
    (blocks : Follows block fun _ => blockPhrase) :
    Follows (classRule block)
      (fun _ first tokens result next =>
        Declaration expressionPhrase statementPhrase blockPhrase first
          (word :: tokens) result next) := by
  apply Follows.mono
  · exact (expect_follows _ _).bind fun name => superclassRule_follows.bind fun superclass =>
      (expect_follows _ _).bind fun _ => (methodsRule_follows blocks).bind fun methods =>
      (expect_follows _ _).bind fun _ => Follows.pure (Stmt.classDecl name superclass methods)
  · rintro rest first tokens result next
      ⟨name, _, _, _, rfl, ⟨isName⟩, superclass, _, _, _, rfl, inherits, opening, _, _, _, rfl,
        ⟨isOpening⟩, methods, _, _, _, rfl, derived, closing, _, _, _, rfl, ⟨isClosing⟩,
        rfl, rfl, rfl⟩
    exact .classDecl isWord isName inherits isOpening derived isClosing

/-- What is read after the first word of a declaration that is no statement. -/
theorem afterDeclarationWord_follows
    (statementPhrase : Bool -> Phrase Stmt)
    (inside : Follows expression fun _ => expressionPhrase)
    (blocks : Follows block fun _ => blockPhrase)
    (token : Token) :
    Follows
      (match token.kind with
        | .keyword .classWord => classRule block
        | .keyword .fnWord => return .function (← functionRule "function" block)
        | _ => declareRule expression)
      (fun _ first tokens result next => beginsProperDeclaration token.kind = true ->
        Declaration expressionPhrase statementPhrase blockPhrase first
          (token :: tokens) result next) := by
  split
  case h_1 shape =>
    exact (classRule_follows token shape blocks).mono fun _ _ _ _ _ derived _ => derived
  case h_2 shape =>
    apply Follows.mono
    · exact (functionRule_follows "function" blocks).bind fun declaration =>
        Follows.pure (Stmt.function declaration)
    · rintro rest first tokens result next ⟨declaration, _, _, _, rfl, derived, rfl, rfl, rfl⟩ -
      rw [List.append_nil]
      exact .function shape derived
  case h_3 =>
    refine (declareRule_follows inside).mono ?_
    intro rest first tokens result next derived begins
    have isWord : token.kind = .keyword .varWord := by
      unfold beginsProperDeclaration at begins
      split at begins <;> simp_all
    exact .variableDecl isWord derived

/-- A declaration that is read without errors is there and is derived by the
grammar. -/
theorem declarationRule_follows
    (inside : Follows expression fun _ => expressionPhrase)
    (statements : Follows statement (.closed statementPhrase))
    (blocks : Follows block fun _ => blockPhrase) :
    Follows (declarationRule expression statement block)
      (fun _ first tokens result next => ∃ declaration, result = some declaration ∧
        Declaration expressionPhrase statementPhrase blockPhrase first
          tokens declaration next) := by
  apply Follows.recovering
  apply Follows.mono
  · apply Follows.ifAccepted
    · exact statements
    · intro token
      exact afterDeclarationWord_follows statementPhrase inside blocks token
  · rintro rest first tokens result next
      (⟨-, dangling, derived, -⟩ | ⟨token, others, rfl, begins, derived⟩)
    · exact .statement derived
    · exact derived begins

theorem pushDeclaration_follows
    (found : Array Stmt)
    (result : Option Stmt) :
    Follows
      (match result with
        | some statement => (return some (found.push statement) : Parse (Option (Array Stmt)))
        | none => return some found)
      (fun _ first tokens pushed next =>
        tokens = [] ∧ (∀ one, result = some one -> pushed = some (found.push one)) ∧
          next = first) := by
  cases result with
  | none =>
    refine (Follows.pure (some found)).mono ?_
    rintro rest first tokens pushed next ⟨rfl, -, rfl⟩
    refine ⟨rfl, ?_, rfl⟩
    intro one impossible
    cases impossible
  | some statement =>
    refine (Follows.pure (some (found.push statement))).mono ?_
    rintro rest first tokens pushed next ⟨rfl, rfl, rfl⟩
    refine ⟨rfl, ?_, rfl⟩
    rintro one ⟨⟩
    rfl

/-- Declarations are derived one after the other, up to where they end. -/
theorem declarationsWhile_follows
    {more : Parse Bool}
    {declaration : Parse (Option Stmt)}
    {phrase : Phrase Stmt}
    (ended : List Token -> Prop)
    (ranOut : ended [])
    (nonempty : ∀ ⦃first tokens result next⦄, phrase first tokens result next -> tokens ≠ [])
    (checks : Follows more fun rest first tokens found next =>
      tokens = [] ∧ next = first ∧ (found = false -> ended rest))
    (declarations : Follows declaration fun _ first tokens result next =>
      ∃ one, result = some one ∧ phrase first tokens one next) :
    Follows (declarationsWhile more declaration)
      (fun rest first tokens result next =>
        Repeated phrase first tokens result next ∧ ended rest) := by
  apply repeated_follows ended ranOut nonempty
  intro found
  apply Follows.mono
  · apply checks.bind
    intro goesOn
    apply Follows.branch goesOn
    · apply declarations.bind
      intro result
      exact pushDeclaration_follows found result
    · exact Follows.pure none
  · rintro rest first tokens result next
      ⟨goesOn, _, _, _, rfl, ⟨rfl, rfl, ends⟩,
        ⟨-, _, _, _, _, rfl, ⟨one, rfl, derived⟩, rfl, pushed, rfl⟩ | ⟨stopped, rfl, rfl, rfl⟩⟩
    · obtain rfl := pushed one rfl
      simp only [List.nil_append, List.append_nil]
      exact ⟨one, rfl, derived⟩
    · exact ⟨rfl, rfl, ends stopped⟩

/-- A block is derived from its declarations. -/
theorem blockRule_follows
    {declaration : Parse (Option Stmt)}
    {phrase : Phrase Stmt}
    (nonempty : ∀ ⦃first tokens result next⦄, phrase first tokens result next -> tokens ≠ [])
    (declarations : Follows declaration fun _ first tokens result next =>
      ∃ one, result = some one ∧ phrase first tokens one next) :
    Follows (blockRule declaration) (fun _ => Block phrase) := by
  apply Follows.mono
  · apply Follows.bind
    · apply declarationsWhile_follows (fun _ => True) trivial nonempty _ declarations
      apply Follows.mono
      · exact (check_follows _).bind fun closes => atEnd_follows.bind fun ends =>
          Follows.pure !(closes || ends)
      · rintro rest first tokens result next
          ⟨_, _, _, _, rfl, ⟨rfl, rfl, -⟩, _, _, _, _, rfl, ⟨rfl, rfl, -⟩, rfl, -, rfl⟩
        exact ⟨rfl, rfl, fun _ => trivial⟩
    · intro body
      exact (expect_follows _ _).bind fun _ => Follows.pure body
  · rintro rest first tokens result next
      ⟨body, _, _, _, rfl, ⟨derived, -⟩, closing, _, _, _, rfl, ⟨isClosing⟩, rfl, rfl, rfl⟩
    exact .mk derived isClosing

end Statements

/-- Statements and blocks are derived, however deeply they are nested. -/
theorem statement_and_block_follow (room : Nat) :
    Follows (statement room) (.closed (StatementWithin room)) ∧
      Follows (block room) (fun _ => BlockWithin room) := by
  induction room with
  | zero =>
    refine ⟨Follows.fail.mono ?_, Follows.fail⟩
    intro rest first tokens result next impossible
    exact impossible.elim
  | succ room inductionHypothesis =>
    obtain ⟨statements, blocks⟩ := inductionHypothesis
    refine ⟨statementRule_follows (expression_follows room) statements blocks, ?_⟩
    apply blockRule_follows
    · intro first tokens result next derived
      exact (declarationWithin_begins room).ne_nil derived
    · exact declarationRule_follows (expression_follows room) statements blocks

/-- Every program that is read without errors is read to its end, and is derived
by the grammar. -/
theorem program_follows :
    Follows program (fun rest first tokens result next =>
      Program first tokens result next ∧ rest = []) := by
  obtain ⟨statements, blocks⟩ := statement_and_block_follow maxNesting
  apply declarationsWhile_follows (· = []) rfl
  · intro first tokens result next derived
    exact (declarationWithin_begins maxNesting).ne_nil derived
  · apply Follows.mono
    · exact atEnd_follows.bind fun ends => Follows.pure !ends
    · rintro rest first tokens result next ⟨ends, _, _, _, rfl, ⟨rfl, rfl, isEnd⟩, rfl, found, rfl⟩
      refine ⟨rfl, rfl, fun stopped => ?_⟩
      have empty : rest.isEmpty = true := by
        rw [stopped, isEnd] at found
        simpa using found
      exact List.isEmpty_iff.mp empty
  · exact declarationRule_follows (expression_follows maxNesting) statements blocks

/-- Every single expression that is read without errors takes up all tokens and
is derived by the grammar. -/
theorem wholeExpression_follows :
    Follows wholeExpression (fun rest first tokens result next =>
      Expression maxNesting first tokens result next ∧ rest = []) := by
  apply Follows.mono
  · apply (expression_follows maxNesting).bind
    intro result
    apply atEnd_follows.bind
    intro ends
    apply Follows.branch ends
    · exact Follows.pure result
    · exact Follows.fail
  · rintro rest first tokens result next
      ⟨_, _, _, _, rfl, derived, ends, _, _, _, rfl, ⟨rfl, rfl, isEnd⟩,
        ⟨atEnd, rfl, rfl, rfl⟩ | ⟨-, impossible⟩⟩
    · simp only [List.append_nil]
      refine ⟨derived, ?_⟩
      rw [isEnd] at atEnd
      exact List.isEmpty_iff.mp (by simpa using atEnd)
    · exact impossible.elim

end Parse
end TreeWalk
