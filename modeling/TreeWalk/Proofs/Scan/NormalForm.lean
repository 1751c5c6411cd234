import TreeWalk.Proofs.Parse.Relining
import TreeWalk.Proofs.Scan.Renaming

/-!
# The tokens of a text, and nothing else

The normal form of a source text has the texts of its tokens, with single spaces
between them.  Comments, blanks and what forms no token are left out.  A space
neither joins two tokens nor splits one, so the normal form has the tokens of the
source text, and it is parsed to the same program.
-/

namespace TreeWalk
namespace Piece

/-- A text is empty or begins with a space. -/
def BeginsApart (text : List Char) : Prop :=
  text.head?.all (· == ' ') = true

/-- A piece is taken as it is where a space follows, and where nothing follows. -/
def StandsAlone (piece : Piece) : Prop :=
  ∃ first tail, piece.text = first :: tail ∧
    ∀ following, BeginsApart following -> next first (tail ++ following) = (piece, following)

/-- The piece that is a single space. -/
def space : Piece :=
  ⟨[' '], .blank⟩

/-- Whether a piece is a token. -/
def isToken (piece : Piece) : Bool :=
  match piece.content with
  | .token _ => true
  | _ => false

section Alone

variable {following : List Char}

/-- Where no space can continue a stretch, it stops before a space. -/
theorem BeginsApart.stops
    {test : Char -> Bool}
    (apart : BeginsApart following)
    (noSpace : test ' ' = false) :
    following.head?.any test = false := by
  cases following with
  | nil => rfl
  | cons first rest =>
    rw [BeginsApart, List.head?_cons, Option.all_some, beq_iff_eq] at apart
    rw [apart]
    exact noSpace

/-- A text that begins apart begins with no other character than a space. -/
theorem BeginsApart.ne_cons
    {first : Char}
    {rest : List Char}
    (apart : BeginsApart following)
    (noSpace : first ≠ ' ') :
    following ≠ first :: rest := by
  rintro rfl
  rw [BeginsApart, List.head?_cons, Option.all_some, beq_iff_eq] at apart
  exact noSpace apart

/-- What begins apart does not go on as a fraction. -/
theorem BeginsApart.noFraction (apart : BeginsApart following) :
    beginsFraction following = false := by
  unfold beginsFraction
  split
  · exact absurd rfl (apart.ne_cons (by decide))
  · rfl

/-- A word stands alone, as its characters are all that is looked at. -/
theorem standsAlone_word
    {first : Char}
    (notBlank : ¬ Piece.isBlank first = true)
    (begins : beginsWord first = true)
    (rest : List Char) :
    (takeWord first rest).1.StandsAlone := by
  refine ⟨first, rest.takeWhile continuesWord, rfl, fun following apart => ?_⟩
  have stops := apart.stops (show continuesWord ' ' = false from rfl)
  rw [next_of_word notBlank begins, takeWord, takeWhile_append_of_stops rest stops,
    dropWhile_append_of_stops rest stops]
  rfl

/-- A number stands alone where no further digits or fraction follow. -/
theorem standsAlone_number
    {first : Char}
    (notBlank : ¬ Piece.isBlank first = true)
    (notWord : ¬ beginsWord first = true)
    (isDigit : first.isDigit = true)
    (rest : List Char) :
    (takeNumber first rest).1.StandsAlone := by
  have taken := next_of_digit notBlank notWord isDigit
  have whole := List.takeWhile_append_dropWhile (p := Char.isDigit) (l := rest)
  by_cases fraction : beginsFraction (rest.dropWhile Char.isDigit) = true
  · unfold beginsFraction at fraction
    split at fraction
    · rename_i next others remainder
      have here := takeNumber_of_fraction first next rest others fraction
        (any_head?_dropWhile Char.isDigit others)
      rw [List.takeWhile_append_dropWhile, ← remainder, whole] at here
      rw [here]
      refine ⟨first, _, rfl, fun following apart => ?_⟩
      rw [taken, List.append_assoc]
      exact takeNumber_of_fraction first next rest others fraction (apart.stops rfl)
    · cases fraction
  · have here := takeNumber_of_stops first rest (any_head?_dropWhile Char.isDigit rest)
      (Bool.eq_false_iff.mpr fraction)
    rw [whole] at here
    rw [here]
    refine ⟨first, rest.takeWhile Char.isDigit, rfl, fun following apart => ?_⟩
    rw [taken]
    exact takeNumber_of_stops first rest (apart.stops rfl) apart.noFraction

/-- A string ends at its quote, whatever follows. -/
theorem standsAlone_string
    {rest : List Char}
    (isToken : (takeString rest).1.isToken = true) :
    (takeString rest).1.StandsAlone := by
  unfold takeString at isToken ⊢
  split
  · rename_i closing remainder found
    have stops : ∀ following : List Char,
        (closing :: following).head?.any (· != '"') = false := by
      have ends := any_head?_dropWhile (· != '"') rest
      rw [found] at ends
      exact fun _ => ends
    refine ⟨'"', rest.takeWhile (· != '"') ++ [closing], rfl, fun following _ => ?_⟩
    rw [next_of_quote, List.append_assoc, takeString, List.singleton_append,
      takeWhile_append_of_stops rest (stops following),
      dropWhile_append_of_stops rest (stops following)]
  · rename_i found
    rw [found] at isToken
    cases isToken

/-- A symbol of one character is taken as it is also where a longer symbol, or a
comment, could have begun. -/
theorem standsAlone_symbol
    {first : Char}
    {rest : List Char}
    (notBlank : ¬ Piece.isBlank first = true)
    (notWord : ¬ beginsWord first = true)
    (notDigit : ¬ first.isDigit = true)
    (notQuote : ¬ (first == '"') = true)
    {symbol : Symbol}
    (isSymbol : Symbol.ofChar? first = some symbol) :
    (takeSymbol symbol first rest).1.StandsAlone := by
  have taken : ∀ {text : List Char}, (∀ others, text ≠ '/' :: others) ->
      (∀ others, text ≠ '*' :: others) -> next first text = takeSymbol symbol first text :=
    fun noSlash noStar => next_of_symbol notBlank notWord notDigit notQuote
      (fun others _ => noSlash others) (fun others _ => noStar others) isSymbol
  by_cases isLonger : ∃ longer remainder,
      symbol.withEqual? = some longer ∧ rest = '=' :: remainder
  · obtain ⟨longer, remainder, isLonger, rfl⟩ := isLonger
    rw [takeSymbol_longer first isLonger]
    refine ⟨first, ['='], rfl, fun following apart => ?_⟩
    rw [List.singleton_append, taken (by simp) (by simp), takeSymbol_longer first isLonger]
  · rw [takeSymbol_single first fun longer others hasLonger begins =>
      isLonger ⟨longer, others, hasLonger, begins⟩]
    refine ⟨first, [], rfl, fun following apart => ?_⟩
    rw [List.nil_append, taken (fun _ => apart.ne_cons (by decide))
      (fun _ => apart.ne_cons (by decide)), takeSymbol_single]
    · rfl
    · exact fun longer others _ => apart.ne_cons (by decide)

end Alone

/-- Every token stands alone. -/
theorem standsAlone_next
    {first : Char}
    {rest : List Char}
    (isToken : (next first rest).1.isToken = true) :
    (next first rest).1.StandsAlone := by
  generalize isTaken : next first rest = taken at isToken ⊢
  unfold next at isTaken
  split at isTaken
  · subst isTaken
    cases isToken
  rename_i notBlank
  split at isTaken
  · rename_i begins
    subst isTaken
    exact standsAlone_word notBlank begins rest
  rename_i notWord
  split at isTaken
  · rename_i isDigit
    subst isTaken
    exact standsAlone_number notBlank notWord isDigit rest
  rename_i notDigit
  split at isTaken
  · subst isTaken
    exact standsAlone_string isToken
  rename_i notQuote
  split at isTaken
  · subst isTaken
    cases isToken
  · subst isTaken
    unfold takeBlockComment at isToken
    split at isToken <;> cases isToken
  · split at isTaken
    · rename_i symbol isSymbol
      subst isTaken
      exact standsAlone_symbol notBlank notWord notDigit notQuote isSymbol
    · subst isTaken
      cases isToken

/-- Every token that is cut from a text stands alone. -/
theorem standsAlone_cut (text : List Char) :
    ∀ piece ∈ cut text, piece.isToken = true -> piece.StandsAlone := by
  induction length : text.length using Nat.strongRecOn generalizing text with
  | ind length inductionHypothesis =>
    cases text with
    | nil => simp
    | cons first rest =>
      rw [cut_cons, List.forall_mem_cons]
      exact ⟨standsAlone_next,
        inductionHypothesis _ (length ▸ length_next_lt first rest) _ rfl⟩

/-- Pieces that stand alone, with spaces between them, are the pieces of what they
spell. -/
theorem cut_intersperse
    {pieces : List Piece}
    (alone : ∀ piece ∈ pieces, piece.StandsAlone) :
    cut ((pieces.intersperse space).flatMap Piece.text) = pieces.intersperse space := by
  induction pieces with
  | nil => exact cut_nil
  | cons piece others inductionHypothesis =>
    rw [List.forall_mem_cons] at alone
    obtain ⟨first, tail, isText, taken⟩ := alone.1
    have further := inductionHypothesis alone.2
    cases others with
    | nil =>
      have takenLast := taken [] rfl
      rw [List.append_nil] at takenLast
      rw [List.intersperse_singleton, List.flatMap_singleton, isText, cut_cons, takenLast, cut_nil]
    | cons second rest =>
      have takenApart : ∀ more : List Char,
          cut (piece.text ++ (space.text ++ more)) = piece :: space :: cut more := by
        intro more
        rw [isText, List.cons_append, cut_cons, taken (space.text ++ more) rfl]
        exact congrArg (piece :: ·) (cut_cons ' ' more)
      rw [List.intersperse_cons_cons, List.flatMap_cons, List.flatMap_cons, takenApart, further]

/-- The text of pieces with a space between each two. -/
theorem flatMap_intersperse (pieces : List Piece) :
    (pieces.intersperse space).flatMap Piece.text = [' '].intercalate (pieces.map Piece.text) := by
  induction pieces with
  | nil => rfl
  | cons piece others inductionHypothesis =>
    cases others with
    | nil => simp
    | cons second rest =>
      rw [List.intersperse_cons_cons, List.flatMap_cons, List.flatMap_cons, inductionHypothesis]
      simp [space]

/-- The tokens among pieces with a space between each two are the pieces. -/
theorem filter_intersperse
    {pieces : List Piece}
    (tokens : ∀ piece ∈ pieces, piece.isToken = true) :
    (pieces.intersperse space).filter isToken = pieces := by
  induction pieces with
  | nil => rfl
  | cons piece others inductionHypothesis =>
    rw [List.forall_mem_cons] at tokens
    cases others with
    | nil => simp [tokens.1]
    | cons second rest =>
      rw [List.intersperse_cons_cons, List.filter_cons_of_pos tokens.1,
        List.filter_cons_of_neg (by decide), inductionHypothesis tokens.2]

/-- What holds of each piece and of a space holds of the pieces with spaces between. -/
theorem forall_mem_intersperse
    {pieces : List Piece}
    {property : Piece -> Prop}
    (holds : ∀ piece ∈ pieces, property piece)
    (holdsSpace : property space) :
    ∀ piece ∈ pieces.intersperse space, property piece := by
  induction pieces with
  | nil => simp
  | cons piece others inductionHypothesis =>
    rw [List.forall_mem_cons] at holds
    cases others with
    | nil => simpa using holds.1
    | cons second rest =>
      rw [List.intersperse_cons_cons, List.forall_mem_cons, List.forall_mem_cons]
      exact ⟨holds.1, holdsSpace, inductionHypothesis holds.2⟩

end Piece

namespace Scan

/-- No line at all. -/
def noLine : Nat -> Nat :=
  fun _ => 0

/-- The tokens of some pieces are those of the pieces that are tokens, but for
their lines. -/
theorem tokensFrom_reline (line : Nat) (pieces : List Piece) :
    ((itemsFrom line pieces).filterMap Item.token?).map (·.reline noLine) =
      (pieces.filter Piece.isToken).filterMap (pieceToken? · 0) := by
  induction pieces generalizing line with
  | nil => rfl
  | cons first rest inductionHypothesis =>
    rw [tokensFrom_cons, List.map_append, inductionHypothesis]
    obtain ⟨text, content⟩ := first
    cases content <;> rfl

/-- The lexemes of the tokens are the texts of the pieces that are tokens. -/
theorem lexemesFrom (line : Nat) (pieces : List Piece) :
    ((itemsFrom line pieces).filterMap Item.token?).map (·.lexeme.toList) =
      (pieces.filter Piece.isToken).map Piece.text := by
  induction pieces generalizing line with
  | nil => rfl
  | cons first rest inductionHypothesis =>
    rw [tokensFrom_cons, List.map_append, inductionHypothesis]
    obtain ⟨text, content⟩ := first
    cases content with
    | token kind => exact congrArg (· :: _) String.toList_ofList
    | _ => rfl

end Scan

/-- The texts of the tokens of a source text, with single spaces between them. -/
def normalForm (source : String) : String :=
  " ".intercalate ((Scan.ofSource source).tokens.map (·.lexeme))

/-- The pieces of the normal form are the tokens of the source text and spaces. -/
theorem cut_normalForm (source : String) :
    Piece.cut (normalForm source).toList =
      ((Piece.cut source.toList).filter Piece.isToken).intersperse Piece.space := by
  have spelled : (normalForm source).toList =
      (((Piece.cut source.toList).filter Piece.isToken).intersperse Piece.space).flatMap
        Piece.text := by
    rw [normalForm, String.toList_intercalate, List.map_map, Piece.flatMap_intersperse,
      Scan.tokens_eq_filterMap, Scan.items_ofSource, ← Scan.lexemesFrom 1]
    rfl
  rw [spelled]
  refine Piece.cut_intersperse fun piece member => ?_
  rw [List.mem_filter] at member
  exact Piece.standsAlone_cut source.toList piece member.1 member.2

/-- The normal form has the tokens of the source text, but for their lines. -/
theorem tokens_normalForm (source : String) :
    (Scan.ofSource (normalForm source)).tokens.map (·.reline Scan.noLine) =
      (Scan.ofSource source).tokens.map (·.reline Scan.noLine) := by
  have tokens : ∀ piece ∈ (Piece.cut source.toList).filter Piece.isToken,
      piece.isToken = true := fun piece member => (List.mem_filter.mp member).2
  rw [Scan.tokens_eq_filterMap, Scan.tokens_eq_filterMap, Scan.items_ofSource,
    Scan.items_ofSource, Scan.tokensFrom_reline, Scan.tokensFrom_reline, cut_normalForm,
    Piece.filter_intersperse tokens]

/-- A normal form scans without errors. -/
theorem errors_normalForm (source : String) :
    (Scan.ofSource (normalForm source)).errors = [] := by
  rw [Scan.errors_eq_nil_iff, cut_normalForm]
  refine Piece.forall_mem_intersperse (fun piece member fault isFault => ?_) (by simp [Piece.space])
  have isToken := (List.mem_filter.mp member).2
  rw [Piece.isToken, isFault] at isToken
  cases isToken

/-- A text without faults is scanned to tokens only. -/
theorem Scan.allItems_of_errors_eq_nil
    {scan : Scan}
    (clean : scan.errors = []) :
    scan.allItems = (scan.tokens ++ [scan.endToken]).map .token := by
  have tokensOnly : scan.items.toList = scan.tokens.map .token := by
    rw [Scan.errors] at clean
    rw [Scan.tokens_eq_filterMap]
    generalize scan.items.toList = items at clean ⊢
    induction items with
    | nil => rfl
    | cons item rest inductionHypothesis =>
      cases item with
      | token token => exact congrArg (_ :: ·) (inductionHypothesis clean)
      | fault line fault => cases clean
  rw [Scan.allItems, tokensOnly, List.map_append]
  rfl

/-- Two source texts have the same tokens and are parsed to the same statements, or to
the same expression, with the same numbers and syntax errors.  All this is so but for
the lines. -/
structure SameButForLines (source other : String) : Prop where
  tokens : (Scan.ofSource source).tokens.map (·.reline Scan.noLine) =
    (Scan.ofSource other).tokens.map (·.reline Scan.noLine)
  endToken : (Scan.ofSource source).endToken.reline Scan.noLine =
    (Scan.ofSource other).endToken.reline Scan.noLine
  program : ∀ firstId,
    (parseTokens (Scan.ofSource source).tokens (Scan.ofSource source).endToken firstId).reline
        Scan.noLine (Stmt.listReline Scan.noLine) =
      (parseTokens (Scan.ofSource other).tokens (Scan.ofSource other).endToken firstId).reline
        Scan.noLine (Stmt.listReline Scan.noLine)
  expression :
    (parseExpressionTokens (Scan.ofSource source).tokens (Scan.ofSource source).endToken).reline
        Scan.noLine (Option.map (Expr.reline Scan.noLine)) =
      (parseExpressionTokens (Scan.ofSource other).tokens (Scan.ofSource other).endToken).reline
        Scan.noLine (Option.map (Expr.reline Scan.noLine))

/-- Parsing looks at the lines of tokens only to copy them. -/
theorem sameButForLines_of_tokens
    {source other : String}
    (tokens : (Scan.ofSource source).tokens.map (·.reline Scan.noLine) =
      (Scan.ofSource other).tokens.map (·.reline Scan.noLine))
    (endToken : (Scan.ofSource source).endToken.reline Scan.noLine =
      (Scan.ofSource other).endToken.reline Scan.noLine) :
    SameButForLines source other := by
  refine ⟨tokens, endToken, fun firstId => ?_, ?_⟩
  · rw [← parseTokens_reline, ← parseTokens_reline, tokens, endToken]
  · rw [← parseExpressionTokens_reline, ← parseExpressionTokens_reline, tokens, endToken]

/-- The normal form of a source text, which may have faults, is scanned without any
to the tokens of the source text and the end of the input, and is parsed to the same,
all of it but for the lines.  It is its own normal form, and the errors that are found
in it are syntax errors. -/
theorem normal_form_rescans_to_the_same_tokens (source : String) :
    (Scan.ofSource (normalForm source)).errors = [] ∧
      (Scan.ofSource (normalForm source)).allItems =
        ((Scan.ofSource (normalForm source)).tokens ++
          [(Scan.ofSource (normalForm source)).endToken]).map .token ∧
      SameButForLines (normalForm source) source ∧
      normalForm (normalForm source) = normalForm source ∧
      (∀ firstId, (parseProgram (normalForm source) firstId).errors =
        (parseTokens (Scan.ofSource (normalForm source)).tokens
          (Scan.ofSource (normalForm source)).endToken firstId).errors.map (·.toError)) ∧
      (parseExpression (normalForm source)).errors =
        (parseExpressionTokens (Scan.ofSource (normalForm source)).tokens
          (Scan.ofSource (normalForm source)).endToken).errors.map (·.toError) := by
  have clean := errors_normalForm source
  have same : SameButForLines (normalForm source) source :=
    sameButForLines_of_tokens (tokens_normalForm source) rfl
  have lexemes : (Scan.ofSource (normalForm source)).tokens.map (·.lexeme) =
      (Scan.ofSource source).tokens.map (·.lexeme) := by
    have sameLexemes := congrArg (List.map Token.lexeme) same.tokens
    rwa [List.map_map, List.map_map] at sameLexemes
  refine ⟨clean, Scan.allItems_of_errors_eq_nil clean, same,
    congrArg (String.intercalate " ") lexemes, fun firstId => ?_, ?_⟩
  · rw [parseProgram, Parsed.withScan, clean, List.nil_append]
  · rw [parseExpression, Parsed.withScan, clean, List.nil_append]

end TreeWalk
