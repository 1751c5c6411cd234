import TreeWalk.Proofs.Scan

/-!
# What a piece depends on

Taking a piece off a text looks at most two characters beyond the piece.  What it
may see there is the outlook of the text that follows, so one text may follow in
place of another if they have the same outlook.  A line feed, in particular, may
be put behind a text, and any text behind the line feed.
-/

namespace TreeWalk
namespace Piece

/-- What taking a piece may depend on in the text that follows the piece. -/
structure Outlook where
  continuesWord : Bool
  isDigit : Bool
  isFraction : Bool
  isEqual : Bool
  isSlash : Bool
  isStar : Bool
  endsLine : Bool
deriving DecidableEq

/-- Whether a text begins with a point and a digit. -/
def beginsFraction : List Char -> Bool
  | '.' :: next :: _ => next.isDigit
  | _ => false

/-- The outlook of a text. -/
def outlook (text : List Char) : Outlook where
  continuesWord := text.head?.any Piece.continuesWord
  isDigit := text.head?.any Char.isDigit
  isFraction := beginsFraction text
  isEqual := text.head? == some '='
  isSlash := text.head? == some '/'
  isStar := text.head? == some '*'
  endsLine := text.head?.all (· == '\n')

/-- If a piece with some first character is taken, it is also taken in front of
any text with the outlook of what is left. -/
def Steady (first : Char) (taken : Piece × List Char) : Prop :=
  ∀ following, outlook following = outlook taken.2 ->
    ∃ tail, taken.1.text = first :: tail ∧ next first (tail ++ following) = (taken.1, following)

theorem not_isDigit_of_beginsWord {first : Char} (begins : beginsWord first = true) :
    first.isDigit = false := by
  rw [beginsWord, Bool.or_eq_true, beq_iff_eq] at begins
  rcases begins with isLetter | rfl
  · delta Char.isAlpha Char.isUpper Char.isLower at isLetter
    simp only [Bool.or_eq_true, Bool.and_eq_true, decide_eq_true_eq,
      UInt32.le_iff_toNat_le] at isLetter
    simp only [Char.isDigit, Bool.and_eq_false_iff, decide_eq_false_iff_not,
      UInt32.le_iff_toNat_le]
    simp at isLetter ⊢
    omega
  · rfl

theorem continuesWord_of_beginsWord {first : Char} (begins : beginsWord first = true) :
    continuesWord first = true := by
  rw [beginsWord, Bool.or_eq_true] at begins
  rw [continuesWord, Char.isAlphanum, Bool.or_eq_true, Bool.or_eq_true]
  rcases begins with isLetter | isUnderscore
  · exact .inl (.inl isLetter)
  · exact .inr isUnderscore

theorem ne_of_beginsWord
    {first other : Char}
    (begins : beginsWord first = true)
    (notWord : beginsWord other = false) :
    first ≠ other := by
  intro same
  rw [same, notWord] at begins
  cases begins

theorem not_isBlank_of_beginsWord {first : Char} (begins : beginsWord first = true) :
    ¬ isBlank first = true := by
  rw [isBlank, beq_false_of_ne (ne_of_beginsWord begins rfl),
    beq_false_of_ne (ne_of_beginsWord begins rfl), beq_false_of_ne (ne_of_beginsWord begins rfl),
    beq_false_of_ne (ne_of_beginsWord begins rfl)]
  exact Bool.false_ne_true

section Stretches

variable {test : Char -> Bool} {following : List Char}

/-- What is left behind a run does not go on with it. -/
theorem any_head?_dropWhile (test : Char -> Bool) (text : List Char) :
    (text.dropWhile test).head?.any test = false := by
  induction text with
  | nil => rfl
  | cons first rest inductionHypothesis =>
    by_cases holds : test first = true
    · rw [List.dropWhile_cons_of_pos holds, inductionHypothesis]
    · rw [List.dropWhile_cons_of_neg holds, List.head?_cons, Option.any_some]
      exact Bool.eq_false_iff.mpr holds

/-- A run that stops at once is empty. -/
theorem takeWhile_of_stops (stops : following.head?.any test = false) :
    following.takeWhile test = [] := by
  cases following with
  | nil => rfl
  | cons first rest =>
    rw [List.head?_cons, Option.any_some] at stops
    rw [List.takeWhile_cons, stops]
    rfl

/-- A run that stops at once drops nothing. -/
theorem dropWhile_of_stops (stops : following.head?.any test = false) :
    following.dropWhile test = following := by
  cases following with
  | nil => rfl
  | cons first rest =>
    rw [List.head?_cons, Option.any_some] at stops
    rw [List.dropWhile_cons, stops]
    rfl

/-- A stretch ends where the text that follows it does not continue it. -/
theorem takeWhile_append_of_stops
    (text : List Char)
    (stops : following.head?.any test = false) :
    (text.takeWhile test ++ following).takeWhile test = text.takeWhile test := by
  rw [List.takeWhile_append_of_pos fun c member => List.all_eq_true.mp List.all_takeWhile c member,
    takeWhile_of_stops stops, List.append_nil]

/-- A run in front of a text that stops it is dropped up to that text. -/
theorem dropWhile_append_of_stops
    (text : List Char)
    (stops : following.head?.any test = false) :
    (text.takeWhile test ++ following).dropWhile test = following := by
  rw [List.dropWhile_append_of_pos fun c member => List.all_eq_true.mp List.all_takeWhile c member,
    dropWhile_of_stops stops]

end Stretches

/-! ## Pieces of each kind -/

/-- A blank is a piece of its own. -/
theorem next_of_blank
    {first : Char}
    (isBlank : Piece.isBlank first = true)
    (rest : List Char) :
    next first rest = single first rest .blank := by
  unfold next
  exact if_pos isBlank

/-- A letter begins a word. -/
theorem next_of_word
    {first : Char}
    (notBlank : ¬ Piece.isBlank first = true)
    (begins : beginsWord first = true)
    (rest : List Char) :
    next first rest = takeWord first rest := by
  unfold next
  exact (if_neg notBlank).trans (if_pos begins)

/-- A digit begins a number. -/
theorem next_of_digit
    {first : Char}
    (notBlank : ¬ Piece.isBlank first = true)
    (notWord : ¬ beginsWord first = true)
    (isDigit : first.isDigit = true)
    (rest : List Char) :
    next first rest = takeNumber first rest := by
  unfold next
  exact (if_neg notBlank).trans ((if_neg notWord).trans (if_pos isDigit))

/-- A word is cut in the same way whatever follows, if that does not continue it. -/
theorem steady_word
    {first : Char}
    (notBlank : ¬ Piece.isBlank first = true)
    (begins : beginsWord first = true)
    (rest : List Char) :
    Steady first (takeWord first rest) := by
  intro following sees
  have stops : following.head?.any continuesWord = false :=
    (congrArg Outlook.continuesWord sees).trans (any_head?_dropWhile continuesWord rest)
  refine ⟨rest.takeWhile continuesWord, rfl, ?_⟩
  rw [next_of_word notBlank begins, takeWord, takeWhile_append_of_stops rest stops,
    dropWhile_append_of_stops rest stops]
  rfl

/-- A number without a fraction, in front of a text that does not continue it. -/
theorem takeNumber_of_stops
    (first : Char)
    (digits : List Char)
    {following : List Char}
    (stops : following.head?.any Char.isDigit = false)
    (noFraction : beginsFraction following = false) :
    takeNumber first (digits.takeWhile Char.isDigit ++ following) =
      (⟨first :: digits.takeWhile Char.isDigit,
        .token (.number (Binary64.ofDigits (first :: digits.takeWhile Char.isDigit) []))⟩,
        following) := by
  rw [takeNumber, takeWhile_append_of_stops digits stops, dropWhile_append_of_stops digits stops]
  split
  · rename_i next others
    have notDigit : ¬ next.isDigit = true := Bool.eq_false_iff.mp noFraction
    rw [if_neg notDigit]
  · rfl

/-- A number with a fraction, in front of a text that does not continue it. -/
theorem takeNumber_of_fraction
    (first next : Char)
    (digits others : List Char)
    {following : List Char}
    (isDigit : next.isDigit = true)
    (stops : following.head?.any Char.isDigit = false) :
    takeNumber first (digits.takeWhile Char.isDigit ++
        '.' :: next :: (others.takeWhile Char.isDigit ++ following)) =
      (⟨first :: (digits.takeWhile Char.isDigit ++
          '.' :: next :: others.takeWhile Char.isDigit),
        .token (.number (Binary64.ofDigits (first :: digits.takeWhile Char.isDigit)
          (next :: others.takeWhile Char.isDigit)))⟩,
        following) := by
  have point : ('.' :: next :: (others.takeWhile Char.isDigit ++ following)).head?.any
      Char.isDigit = false := rfl
  rw [takeNumber, takeWhile_append_of_stops digits point, dropWhile_append_of_stops digits point]
  split
  · rename_i found
    cases found
    rw [if_pos isDigit, takeWhile_append_of_stops others stops,
      dropWhile_append_of_stops others stops]
    rfl
  · rename_i absent
    exact absurd rfl (absent _ _)

/-- A number is cut in the same way whatever follows, if that does not continue it. -/
theorem steady_number
    {first : Char}
    (notBlank : ¬ Piece.isBlank first = true)
    (notWord : ¬ beginsWord first = true)
    (isDigit : first.isDigit = true)
    (rest : List Char) :
    Steady first (takeNumber first rest) := by
  have whole := List.takeWhile_append_dropWhile (p := Char.isDigit) (l := rest)
  have ends := any_head?_dropWhile Char.isDigit rest
  have taken := next_of_digit notBlank notWord isDigit
  intro following sees
  by_cases fraction : beginsFraction (rest.dropWhile Char.isDigit) = true
  · unfold beginsFraction at fraction
    split at fraction
    · rename_i next others remainder
      have stops := any_head?_dropWhile Char.isDigit others
      have here := takeNumber_of_fraction first next rest others fraction stops
      rw [List.takeWhile_append_dropWhile, ← remainder, whole] at here
      rw [here] at sees ⊢
      refine ⟨_, rfl, ?_⟩
      rw [taken, List.append_assoc]
      exact takeNumber_of_fraction first next rest others fraction
        ((congrArg Outlook.isDigit sees).trans stops)
    · cases fraction
  · have noFraction : beginsFraction (rest.dropWhile Char.isDigit) = false :=
      Bool.eq_false_iff.mpr fraction
    have here := takeNumber_of_stops first rest ends noFraction
    rw [whole] at here
    rw [here] at sees ⊢
    refine ⟨rest.takeWhile Char.isDigit, rfl, ?_⟩
    rw [taken]
    exact takeNumber_of_stops first rest ((congrArg Outlook.isDigit sees).trans ends)
      ((congrArg Outlook.isFraction sees).trans noFraction)

/-- A quote begins a string. -/
theorem next_of_quote (rest : List Char) : next '"' rest = takeString rest := by
  unfold next
  rfl

/-- A terminated string is cut in the same way whatever follows. -/
theorem steady_string
    {rest : List Char}
    (whole : ∀ fault, (takeString rest).1.content ≠ .fault fault) :
    Steady '"' (takeString rest) := by
  intro following _
  unfold takeString at whole ⊢
  split
  · rename_i closing remainder found
    have stops : (closing :: remainder).head?.any (· != '"') = false := by
      rw [← found]
      exact any_head?_dropWhile _ rest
    refine ⟨rest.takeWhile (· != '"') ++ [closing], rfl, ?_⟩
    have stillStops : (closing :: following).head?.any (· != '"') = false := stops
    rw [next_of_quote, List.append_assoc, takeString, List.singleton_append,
      takeWhile_append_of_stops rest stillStops, dropWhile_append_of_stops rest stillStops]
  · rename_i found
    rw [found] at whole
    exact absurd rfl (whole .unterminatedString)

/-- Two slashes begin a comment to the end of the line. -/
theorem next_of_lineComment (rest : List Char) : next '/' ('/' :: rest) = takeLineComment rest := by
  unfold next
  rfl

/-- A slash and a star begin a block comment. -/
theorem next_of_blockComment (rest : List Char) :
    next '/' ('*' :: rest) = takeBlockComment rest := by
  unfold next
  rfl

/-- A line comment is cut in the same way whatever follows its line feed. -/
theorem steady_lineComment (rest : List Char) : Steady '/' (takeLineComment rest) := by
  intro following sees
  have ends : (rest.dropWhile (· != '\n')).head?.all (· == '\n') = true := by
    have stops := any_head?_dropWhile (· != '\n') rest
    cases found : (rest.dropWhile (· != '\n')).head? with
    | none => rfl
    | some c =>
      rw [found, Option.any_some] at stops
      simpa using stops
  have stops : following.head?.any (· != '\n') = false := by
    have stillEnds := (congrArg Outlook.endsLine sees).trans ends
    cases found : following.head? with
    | none => rfl
    | some c =>
      have same : following.head?.all (· == '\n') = true := stillEnds
      rw [found, Option.all_some] at same
      simpa using same
  refine ⟨'/' :: rest.takeWhile (· != '\n'), rfl, ?_⟩
  rw [List.cons_append, next_of_lineComment, takeLineComment,
    takeWhile_append_of_stops rest stops, dropWhile_append_of_stops rest stops]
  rfl

/-- A block comment ends at its first closing mark, whatever follows. -/
theorem commentEnd?_append
    {skipped length : Nat}
    {text : List Char}
    (found : commentEnd? skipped text = some length)
    (following : List Char) :
    ∃ taken, length = skipped + taken ∧ 2 ≤ taken ∧ taken ≤ text.length ∧
      commentEnd? skipped (text.take taken ++ following) = some length := by
  fun_induction commentEnd? skipped text with
  | case1 skipped => cases found
  | case2 skipped rest =>
    cases found
    refine ⟨2, rfl, Nat.le_refl 2, by simp, ?_⟩
    simp [commentEnd?]
  | case3 skipped first rest notClosing inductionHypothesis =>
    obtain ⟨taken, isLength, atLeast, within, stillFound⟩ := inductionHypothesis found
    refine ⟨taken + 1, by omega, by omega, by simpa using within, ?_⟩
    rw [List.take_succ_cons, List.cons_append, commentEnd?, stillFound]
    intro others isStar isSlash
    cases rest with
    | nil =>
      rw [List.length_nil] at within
      omega
    | cons second remainder =>
      obtain ⟨fewer, rfl⟩ := Nat.exists_eq_add_one.mpr (show 0 < taken by omega)
      rw [List.take_succ_cons, List.cons_append, List.cons.injEq] at isSlash
      exact notClosing remainder isStar (by rw [isSlash.1])

/-- A terminated block comment is cut in the same way whatever follows. -/
theorem steady_blockComment
    {rest : List Char}
    (whole : ∀ fault, (takeBlockComment rest).1.content ≠ .fault fault) :
    Steady '/' (takeBlockComment rest) := by
  intro following _
  unfold takeBlockComment at whole ⊢
  split
  · rename_i length found
    obtain ⟨taken, isLength, -, within, stillFound⟩ := commentEnd?_append found following
    rw [Nat.zero_add] at isLength
    subst isLength
    refine ⟨'*' :: rest.take length, rfl, ?_⟩
    have isTaken : (rest.take length).length = length := List.length_take_of_le within
    rw [List.cons_append, next_of_blockComment, takeBlockComment, stillFound]
    dsimp only
    rw [List.take_left' isTaken, List.drop_left' isTaken]
  · rename_i found
    rw [found] at whole
    exact absurd rfl (whole .unterminatedComment)

/-- A character that begins none of the longer pieces is a symbol, or no token at
all. -/
theorem next_of_symbol
    {first : Char}
    {rest : List Char}
    (notBlank : ¬ Piece.isBlank first = true)
    (notWord : ¬ beginsWord first = true)
    (notDigit : ¬ first.isDigit = true)
    (notQuote : ¬ (first == '"') = true)
    (notLineComment : ∀ others, first = '/' -> rest = '/' :: others -> False)
    (notBlockComment : ∀ others, first = '/' -> rest = '*' :: others -> False)
    {symbol : Symbol}
    (isSymbol : Symbol.ofChar? first = some symbol) :
    next first rest = takeSymbol symbol first rest := by
  rw [next, if_neg notBlank, if_neg notWord, if_neg notDigit, if_neg notQuote, isSymbol]
  · exact notLineComment
  · exact notBlockComment

theorem head?_beq_some {text : List Char} {character : Char} :
    (text.head? == some character) = true ↔ ∃ others, text = character :: others := by
  cases text with
  | nil => simp
  | cons first rest => simp

/-- A text with the same outlook begins with a slash, a star or an equals sign if
the other one does. -/
theorem begins_of_outlook
    {text other : List Char}
    (sees : outlook text = outlook other) :
    (∀ rest, text = '/' :: rest -> ∃ rest, other = '/' :: rest) ∧
      (∀ rest, text = '*' :: rest -> ∃ rest, other = '*' :: rest) ∧
      ∀ rest, text = '=' :: rest -> ∃ rest, other = '=' :: rest := by
  have slash : (text.head? == some '/') = (other.head? == some '/') :=
    congrArg Outlook.isSlash sees
  have star : (text.head? == some '*') = (other.head? == some '*') :=
    congrArg Outlook.isStar sees
  have equal : (text.head? == some '=') = (other.head? == some '=') :=
    congrArg Outlook.isEqual sees
  refine ⟨?_, ?_, ?_⟩
  · intro rest begins
    exact head?_beq_some.mp (slash ▸ head?_beq_some.mpr ⟨rest, begins⟩)
  · intro rest begins
    exact head?_beq_some.mp (star ▸ head?_beq_some.mpr ⟨rest, begins⟩)
  · intro rest begins
    exact head?_beq_some.mp (equal ▸ head?_beq_some.mpr ⟨rest, begins⟩)

/-- A symbol that may take an equals sign takes one that follows. -/
theorem takeSymbol_longer
    {symbol longer : Symbol}
    (first : Char)
    (isLonger : symbol.withEqual? = some longer)
    (remainder : List Char) :
    takeSymbol symbol first ('=' :: remainder) =
      (⟨[first, '='], .token (.symbol longer)⟩, remainder) := by
  simp [takeSymbol, isLonger]

/-- A symbol is one character where no equals sign belongs to it. -/
theorem takeSymbol_single
    {symbol : Symbol}
    {rest : List Char}
    (first : Char)
    (notLonger : ∀ longer others, symbol.withEqual? = some longer ->
      rest = '=' :: others -> False) :
    takeSymbol symbol first rest = single first rest (.token (.symbol symbol)) := by
  unfold takeSymbol
  split
  · rename_i longer others isLonger
    exact (notLonger longer others isLonger rfl).elim
  · rfl

/-- A symbol is cut in the same way whatever follows, if that does not make it longer. -/
theorem steady_symbol
    {first : Char}
    {rest : List Char}
    (notBlank : ¬ Piece.isBlank first = true)
    (notWord : ¬ beginsWord first = true)
    (notDigit : ¬ first.isDigit = true)
    (notQuote : ¬ (first == '"') = true)
    (notLineComment : ∀ others, first = '/' -> rest = '/' :: others -> False)
    (notBlockComment : ∀ others, first = '/' -> rest = '*' :: others -> False)
    {symbol : Symbol}
    (isSymbol : Symbol.ofChar? first = some symbol) :
    Steady first (takeSymbol symbol first rest) := by
  intro following sees
  by_cases isLonger : ∃ longer remainder,
      symbol.withEqual? = some longer ∧ rest = '=' :: remainder
  · obtain ⟨longer, remainder, isLonger, rfl⟩ := isLonger
    rw [takeSymbol_longer first isLonger]
    refine ⟨['='], rfl, ?_⟩
    rw [List.singleton_append, next_of_symbol notBlank notWord notDigit notQuote
      (by simp) (by simp) isSymbol, takeSymbol_longer first isLonger]
  · rw [takeSymbol_single first fun longer others isLonger' begins =>
      isLonger ⟨longer, others, isLonger', begins⟩] at sees ⊢
    obtain ⟨slash, star, equal⟩ := begins_of_outlook sees
    refine ⟨[], rfl, ?_⟩
    rw [List.nil_append, next_of_symbol notBlank notWord notDigit notQuote ?_ ?_ isSymbol,
      takeSymbol_single]
    · rfl
    · intro longer others hasLonger begins
      obtain ⟨remainder, isRest⟩ := equal others begins
      exact isLonger ⟨longer, remainder, hasLonger, isRest⟩
    · intro others isSlash begins
      obtain ⟨remainder, isRest⟩ := slash others begins
      exact notLineComment remainder isSlash isRest
    · intro others isSlash begins
      obtain ⟨remainder, isRest⟩ := star others begins
      exact notBlockComment remainder isSlash isRest

/-- Every piece that is no fault depends on the text that follows it by its
outlook alone. -/
theorem steady_next
    {first : Char}
    {rest : List Char}
    (whole : ∀ fault, (next first rest).1.content ≠ .fault fault) :
    Steady first (next first rest) := by
  generalize isTaken : next first rest = taken at whole ⊢
  unfold next at isTaken
  split at isTaken
  · rename_i isBlank
    subst isTaken
    exact fun following _ => ⟨[], rfl, next_of_blank isBlank following⟩
  rename_i notBlank
  split at isTaken
  · rename_i begins
    subst isTaken
    exact steady_word notBlank begins rest
  rename_i notWord
  split at isTaken
  · rename_i isDigit
    subst isTaken
    exact steady_number notBlank notWord isDigit rest
  rename_i notDigit
  split at isTaken
  · rename_i isQuote
    subst isTaken
    obtain rfl := eq_of_beq isQuote
    exact steady_string whole
  rename_i notQuote
  split at isTaken
  · subst isTaken
    exact steady_lineComment _
  · subst isTaken
    exact steady_blockComment whole
  · rename_i notLineComment notBlockComment
    split at isTaken
    · rename_i symbol isSymbol
      subst isTaken
      exact steady_symbol notBlank notWord notDigit notQuote notLineComment notBlockComment isSymbol
    · subst isTaken
      exact absurd rfl (whole _)

/-- A line feed is no part of the outlook of a text in front of it. -/
theorem outlook_append_lineFeed (text more : List Char) :
    outlook (text ++ '\n' :: more) = outlook text := by
  match text with
  | [] => rfl
  | [only] =>
    by_cases isPoint : only = '.'
    · subst isPoint
      rfl
    · simp [outlook, beginsFraction, isPoint]
  | first :: second :: rest =>
    by_cases isPoint : first = '.'
    · subst isPoint
      rfl
    · simp [outlook, beginsFraction, isPoint]

/-- The pieces of a text are the same in front of a line feed. -/
theorem cut_append_lineFeed
    (text more : List Char)
    (whole : ∀ piece ∈ cut text, ∀ fault, piece.content ≠ .fault fault) :
    cut (text ++ '\n' :: more) = cut text ++ ⟨['\n'], .blank⟩ :: cut more := by
  induction length : text.length using Nat.strongRecOn generalizing text with
  | ind length inductionHypothesis =>
    cases text with
    | nil =>
      rw [List.nil_append, cut_nil, List.nil_append]
      exact cut_cons '\n' more
    | cons first rest =>
      rw [cut_cons, List.forall_mem_cons] at whole
      have shorter := length_next_lt first rest
      have further := inductionHypothesis _ (length ▸ shorter) (next first rest).2 whole.2 rfl
      obtain ⟨tail, isText, taken⟩ := steady_next whole.1 _
        (outlook_append_lineFeed (next first rest).2 more)
      have split : first :: rest = first :: (tail ++ (next first rest).2) := by
        rw [← List.cons_append, ← isText]
        exact (next_splits first rest).2.symm
      rw [List.cons.injEq] at split
      have isCut : first :: rest ++ '\n' :: more =
          first :: (tail ++ ((next first rest).2 ++ '\n' :: more)) := by
        rw [← List.append_assoc, ← split.2, List.cons_append]
      rw [isCut, cut_cons, taken, further, cut_cons, List.cons_append]

end Piece

namespace Scan

/-- How many lines a text is moved down behind another one and a line feed. -/
def linesBefore (source : String) : Nat :=
  linesPassed (Piece.cut source.toList) + 1

/-- A text without faults, a line feed and another text have the tokens of the
one and the moved tokens of the other. -/
theorem tokens_append_lineFeed
    {source : String}
    (more : String)
    (clean : (ofSource source).errors = []) :
    (ofSource (source ++ "\n" ++ more)).tokens =
      (ofSource source).tokens ++ (ofSource more).tokens.map fun token =>
        ⟨token.kind, token.lexeme, token.line + linesBefore source⟩ := by
  have whole := (errors_eq_nil_iff source).mp clean
  have text : (source ++ "\n" ++ more).toList = source.toList ++ '\n' :: more.toList := by
    simp
  have blank : itemsFrom (1 + linesPassed (Piece.cut source.toList))
      (⟨['\n'], .blank⟩ :: Piece.cut more.toList) =
        itemsFrom (1 + linesBefore source) (Piece.cut more.toList) := by
    rw [itemsFrom, linesBefore]
    rfl
  rw [tokens_eq_filterMap, tokens_eq_filterMap, tokens_eq_filterMap, items_ofSource,
    items_ofSource, items_ofSource, text, Piece.cut_append_lineFeed _ _ whole, itemsFrom_append,
    List.filterMap_append, blank, itemsFrom_add]

/-- Two clean texts with a line feed between them are clean together. -/
theorem errors_append_lineFeed
    {source more : String}
    (clean : (ofSource source).errors = [])
    (moreClean : (ofSource more).errors = []) :
    (ofSource (source ++ "\n" ++ more)).errors = [] := by
  rw [errors_eq_nil_iff] at clean moreClean ⊢
  have text : (source ++ "\n" ++ more).toList = source.toList ++ '\n' :: more.toList := by
    simp
  rw [text, Piece.cut_append_lineFeed _ _ clean, List.forall_mem_append, List.forall_mem_cons]
  exact ⟨clean, by simp, moreClean⟩

end Scan
end TreeWalk
