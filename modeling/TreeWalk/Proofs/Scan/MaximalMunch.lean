import Mathlib.Algebra.GroupWithZero.Nat
import Mathlib.Data.List.Forall2
import TreeWalk.Proofs.Scan.Outlook

/-!
# The lexical grammar

The lexical grammar says which texts are tokens, apart from how they are found.
A source text is tokenized when it is cut into stretches that are each the longest
token at their place, a blank or comment, or a stretch that can be part of no
token.  Main statement: scanning a source text tokenizes it, with one item for
each token and each stretch that forms none, and every cut is at the boundary of
two characters.
-/

namespace TreeWalk

/-- How a symbol is written. -/
def Symbol.text : Symbol -> List Char
  | leftParen => ['(']
  | rightParen => [')']
  | leftBrace => ['\x7b']
  | rightBrace => ['\x7d']
  | comma => [',']
  | dot => ['.']
  | minus => ['-']
  | plus => ['+']
  | semicolon => [';']
  | slash => ['/']
  | star => ['*']
  | bang => ['!']
  | bangEqual => ['!', '=']
  | equal => ['=']
  | equalEqual => ['=', '=']
  | greater => ['>']
  | greaterEqual => ['>', '=']
  | less => ['<']
  | lessEqual => ['<', '=']

namespace Lexical

/-- The letters from a to z, small or capital, and the underscore. -/
def IsLetter (c : Char) : Prop :=
  ('a' ≤ c ∧ c ≤ 'z') ∨ ('A' ≤ c ∧ c ≤ 'Z') ∨ c = '_'

/-- The digits from zero to nine. -/
def IsDigit (c : Char) : Prop :=
  '0' ≤ c ∧ c ≤ '9'

/-- A text is a token of a kind. -/
inductive Lexeme : List Char -> Token.Kind -> Prop
  | symbol (symbol : Symbol) : Lexeme symbol.text (.symbol symbol)
  | number
      {whole : List Char}
      (nonempty : whole ≠ [])
      (digits : ∀ c ∈ whole, IsDigit c) :
      Lexeme whole (.number (Binary64.ofDigits whole []))
  | fraction
      {whole fraction : List Char}
      (nonempty : whole ≠ [])
      (digits : ∀ c ∈ whole, IsDigit c)
      (someFraction : fraction ≠ [])
      (moreDigits : ∀ c ∈ fraction, IsDigit c) :
      Lexeme (whole ++ '.' :: fraction) (.number (Binary64.ofDigits whole fraction))
  | string
      {contents : List Char}
      (noQuote : '"' ∉ contents) :
      Lexeme ('"' :: (contents ++ ['"'])) (.string (String.ofList contents))
  | keyword (keyword : Keyword) : Lexeme keyword.text.toList (.keyword keyword)
  | identifier
      {first : Char}
      {rest : List Char}
      (letter : IsLetter first)
      (lettersOrDigits : ∀ c ∈ rest, IsLetter c ∨ IsDigit c)
      (notReserved : ∀ keyword : Keyword, keyword.text.toList ≠ first :: rest) :
      Lexeme (first :: rest) .identifier

/-- The characters that separate tokens. -/
def blanks : List Char :=
  [' ', '\t', '\r', '\n']

/-- The mark that closes a block comment. -/
def closingMark : List Char :=
  ['*', '/']

/-- Whether a comment begins a text. -/
def BeginsComment (text : List Char) : Prop :=
  ['/', '/'] <+: text ∨ ['/', '*'] <+: text

/-- A text is cut into pieces as the lexical grammar says. -/
inductive Tokenized : List Char -> List Piece -> Prop
  | done : Tokenized [] []
  | token
      {text rest : List Char}
      {kind : Token.Kind}
      {pieces : List Piece}
      (lexeme : Lexeme text kind)
      (longest : ∀ other otherKind, Lexeme other otherKind -> other <+: text ++ rest ->
        other.length ≤ text.length)
      (noComment : ¬ BeginsComment (text ++ rest))
      (others : Tokenized rest pieces) :
      Tokenized (text ++ rest) (⟨text, .token kind⟩ :: pieces)
  | blank
      {c : Char}
      {rest : List Char}
      {pieces : List Piece}
      (isBlank : c ∈ blanks)
      (others : Tokenized rest pieces) :
      Tokenized (c :: rest) (⟨[c], .blank⟩ :: pieces)
  | lineComment
      {body rest : List Char}
      {pieces : List Piece}
      (oneLine : '\n' ∉ body)
      (ends : rest = [] ∨ ∃ others, rest = '\n' :: others)
      (others : Tokenized rest pieces) :
      Tokenized ('/' :: '/' :: body ++ rest) (⟨'/' :: '/' :: body, .comment⟩ :: pieces)
  | blockComment
      {body rest : List Char}
      {pieces : List Piece}
      (firstMark : ¬ closingMark <:+: body ++ ['*'])
      (others : Tokenized rest pieces) :
      Tokenized ('/' :: '*' :: (body ++ closingMark) ++ rest)
        (⟨'/' :: '*' :: (body ++ closingMark), .comment⟩ :: pieces)
  | unexpected
      {c : Char}
      {rest : List Char}
      {pieces : List Piece}
      (notBlank : c ∉ blanks)
      (noLexeme : ∀ text kind, ¬ Lexeme (c :: text) kind)
      (others : Tokenized rest pieces) :
      Tokenized (c :: rest) (⟨[c], .fault (.unexpectedCharacter c)⟩ :: pieces)
  | unclosedString
      {rest : List Char}
      (unclosed : '"' ∉ rest) :
      Tokenized ('"' :: rest) [⟨'"' :: rest, .fault .unterminatedString⟩]
  | unclosedComment
      {rest : List Char}
      (unclosed : ¬ closingMark <:+: rest) :
      Tokenized ('/' :: '*' :: rest) [⟨'/' :: '*' :: rest, .fault .unterminatedComment⟩]

theorem isDigit_iff (c : Char) : c.isDigit = true ↔ IsDigit c := by
  simp [Char.isDigit, IsDigit, Char.le_def]

theorem beginsWord_iff (c : Char) : Piece.beginsWord c = true ↔ IsLetter c := by
  delta Piece.beginsWord Char.isAlpha Char.isUpper Char.isLower
  simp only [IsLetter, Char.le_def]
  simp
  tauto

theorem continuesWord_iff (c : Char) :
    Piece.continuesWord c = true ↔ IsLetter c ∨ IsDigit c := by
  rw [← beginsWord_iff, ← isDigit_iff, Piece.continuesWord, Char.isAlphanum, Piece.beginsWord]
  simp
  tauto

theorem isBlank_iff (c : Char) : Piece.isBlank c = true ↔ c ∈ blanks := by
  simp [Piece.isBlank, blanks]
  tauto

section Lexemes

variable {first : Char} {tail : List Char} {kind : Token.Kind}

/-- A symbol begins with neither a letter nor a digit nor a quote. -/
theorem head_text_ne_word
    {symbol : Symbol}
    (isText : symbol.text = first :: tail) :
    Piece.beginsWord first = false ∧ first.isDigit = false ∧ first ≠ '"' := by
  cases symbol <;>
    · rw [Symbol.text, List.cons.injEq] at isText
      rw [← isText.1]
      decide

/-- A symbol's first character is a symbol itself, alone or with an equals sign behind it.
-/
theorem ofChar?_head_text
    {symbol : Symbol}
    (isText : symbol.text = first :: tail) :
    ∃ short, Symbol.ofChar? first = some short ∧
      (tail = [] ∨ tail = ['='] ∧ short.withEqual? = some symbol) := by
  cases symbol <;>
    · rw [Symbol.text, List.cons.injEq] at isText
      obtain ⟨rfl, rfl⟩ := isText
      exact ⟨_, rfl, by decide⟩

/-- A symbol of one character is that character. -/
theorem text_of_ofChar?
    {symbol : Symbol}
    (isSymbol : Symbol.ofChar? first = some symbol) :
    symbol.text = [first] := by
  unfold Symbol.ofChar? at isSymbol
  split at isSymbol <;> cases isSymbol <;> rfl

/-- A longer symbol is the shorter one with an equals sign. -/
theorem text_of_withEqual?
    {symbol longer : Symbol}
    (isLonger : symbol.withEqual? = some longer) :
    longer.text = symbol.text ++ ['='] := by
  cases symbol <;> cases isLonger <;> rfl

/-- Keywords are written in word characters. -/
theorem continuesWord_keyword (keyword : Keyword) :
    ∀ c ∈ keyword.text.toList, Piece.continuesWord c = true := by
  rw [← List.all_eq_true]
  cases keyword <;> decide +kernel

/-- Keywords begin with a letter. -/
theorem beginsWord_keyword
    {keyword : Keyword}
    (isText : keyword.text.toList = first :: tail) :
    Piece.beginsWord first = true := by
  have letters : keyword.text.toList.head?.all Piece.beginsWord = true := by
    cases keyword <;> decide +kernel
  rw [isText] at letters
  exact letters

/-- A token that begins with a letter is written with letters and digits. -/
theorem Lexeme.word
    {text : List Char}
    (lexeme : Lexeme text kind)
    (isText : text = first :: tail)
    (letter : Piece.beginsWord first = true) :
    ∀ c ∈ tail, Piece.continuesWord c = true := by
  cases lexeme with
  | symbol symbol =>
    rw [(head_text_ne_word isText).1] at letter
    cases letter
  | number nonempty digits =>
    have isDigit := (isDigit_iff first).mpr (digits first (isText ▸ List.mem_cons_self))
    rw [Piece.not_isDigit_of_beginsWord letter] at isDigit
    cases isDigit
  | @fraction whole fraction nonempty digits =>
    obtain ⟨head, others, rfl⟩ := List.exists_cons_of_ne_nil nonempty
    rw [List.cons_append, List.cons.injEq] at isText
    have isDigit := (isDigit_iff head).mpr (digits head List.mem_cons_self)
    rw [isText.1, Piece.not_isDigit_of_beginsWord letter] at isDigit
    cases isDigit
  | string noQuote =>
    rw [List.cons.injEq] at isText
    rw [← isText.1] at letter
    cases letter
  | keyword keyword =>
    intro c member
    exact continuesWord_keyword keyword c (isText ▸ List.mem_cons_of_mem first member)
  | identifier _ lettersOrDigits _ =>
    rw [List.cons.injEq] at isText
    rw [← isText.2]
    exact fun c member => (continuesWord_iff c).mpr (lettersOrDigits c member)

/-- A token that begins with a digit is a number. -/
theorem Lexeme.digits
    {text : List Char}
    (lexeme : Lexeme text kind)
    (isText : text = first :: tail)
    (isDigit : first.isDigit = true) :
    ∃ whole, (∀ c ∈ whole, c.isDigit = true) ∧
      (tail = whole ∨ ∃ next fraction, tail = whole ++ '.' :: next :: fraction ∧
        ∀ c ∈ next :: fraction, c.isDigit = true) := by
  have notLetter : Piece.beginsWord first = false := by
    refine Bool.eq_false_iff.mpr fun letter => ?_
    rw [Piece.not_isDigit_of_beginsWord letter] at isDigit
    cases isDigit
  cases lexeme with
  | symbol symbol =>
    rw [(head_text_ne_word isText).2.1] at isDigit
    cases isDigit
  | number nonempty digits =>
    refine ⟨tail, fun c member => ?_, .inl rfl⟩
    exact (isDigit_iff c).mpr (digits c (isText ▸ List.mem_cons_of_mem first member))
  | @fraction whole fraction nonempty digits someFraction moreDigits =>
    obtain ⟨head, others, rfl⟩ := List.exists_cons_of_ne_nil nonempty
    obtain ⟨next, fraction, rfl⟩ := List.exists_cons_of_ne_nil someFraction
    rw [List.cons_append, List.cons.injEq] at isText
    refine ⟨others, fun c member => ?_, .inr ⟨next, fraction, isText.2.symm, fun c member => ?_⟩⟩
    · exact (isDigit_iff c).mpr (digits c (List.mem_cons_of_mem head member))
    · exact (isDigit_iff c).mpr (moreDigits c member)
  | string noQuote =>
    rw [List.cons.injEq] at isText
    rw [← isText.1] at isDigit
    cases isDigit
  | keyword keyword =>
    rw [beginsWord_keyword isText] at notLetter
    cases notLetter
  | identifier letter =>
    rw [List.cons.injEq] at isText
    rw [← isText.1, (beginsWord_iff _).mpr letter] at notLetter
    cases notLetter

/-- A token that begins with a quote is a string. -/
theorem Lexeme.quoted
    {text : List Char}
    (lexeme : Lexeme text kind)
    (isText : text = '"' :: tail) :
    ∃ contents, '"' ∉ contents ∧ tail = contents ++ ['"'] := by
  cases lexeme with
  | symbol symbol => exact absurd rfl (head_text_ne_word isText).2.2
  | number nonempty digits =>
    have isDigit := (isDigit_iff _).mpr (digits '"' (isText ▸ List.mem_cons_self))
    cases isDigit
  | @fraction whole fraction nonempty digits =>
    obtain ⟨head, others, rfl⟩ := List.exists_cons_of_ne_nil nonempty
    rw [List.cons_append, List.cons.injEq] at isText
    have isDigit := (isDigit_iff head).mpr (digits head List.mem_cons_self)
    rw [isText.1] at isDigit
    cases isDigit
  | @string contents noQuote =>
    rw [List.cons.injEq] at isText
    exact ⟨contents, noQuote, isText.2.symm⟩
  | keyword keyword => cases beginsWord_keyword isText
  | identifier letter =>
    rw [List.cons.injEq] at isText
    rw [isText.1] at letter
    cases (beginsWord_iff _).mpr letter

/-- Every other token is a symbol. -/
theorem Lexeme.symbolic
    {text : List Char}
    (lexeme : Lexeme text kind)
    (isText : text = first :: tail)
    (notLetter : ¬ Piece.beginsWord first = true)
    (notDigit : ¬ first.isDigit = true)
    (notQuote : first ≠ '"') :
    ∃ symbol : Symbol, symbol.text = first :: tail := by
  cases lexeme with
  | symbol symbol => exact ⟨symbol, isText⟩
  | number nonempty digits =>
    exact absurd ((isDigit_iff first).mpr (digits first (isText ▸ List.mem_cons_self))) notDigit
  | @fraction whole fraction nonempty digits =>
    obtain ⟨head, others, rfl⟩ := List.exists_cons_of_ne_nil nonempty
    rw [List.cons_append, List.cons.injEq] at isText
    have isDigit := (isDigit_iff head).mpr (digits head List.mem_cons_self)
    exact absurd (isText.1 ▸ isDigit) notDigit
  | string noQuote =>
    rw [List.cons.injEq] at isText
    exact absurd isText.1.symm notQuote
  | keyword keyword => exact absurd (beginsWord_keyword isText) notLetter
  | identifier letter =>
    rw [List.cons.injEq] at isText
    exact absurd (isText.1 ▸ (beginsWord_iff _).mpr letter) notLetter

/-- No lexeme is empty. -/
theorem Lexeme.ne_nil {text : List Char} (lexeme : Lexeme text kind) : text ≠ [] := by
  cases lexeme with
  | symbol symbol => cases symbol <;> exact List.cons_ne_nil _ _
  | number nonempty _ => exact nonempty
  | fraction nonempty => exact List.append_ne_nil_of_left_ne_nil nonempty _
  | string _ => exact List.cons_ne_nil _ _
  | keyword keyword => cases keyword <;> decide
  | identifier => exact List.cons_ne_nil _ _

end Lexemes

/-! ## Taking the longest token -/

/-- A beginning of a text whose characters all pass a test is no longer than the
longest one. -/
theorem length_le_takeWhile
    {test : Char -> Bool}
    {beginning text : List Char}
    (begins : beginning <+: text)
    (pass : ∀ c ∈ beginning, test c = true) :
    beginning.length ≤ (text.takeWhile test).length := by
  obtain ⟨rest, rfl⟩ := begins
  rw [List.takeWhile_append_of_pos pass, List.length_append]
  exact Nat.le_add_right _ _

/-- A text that begins with characters that pass a test and then one that does
not. -/
theorem span_eq
    {test : Char -> Bool}
    {beginning rest : List Char}
    {stop : Char}
    (pass : ∀ c ∈ beginning, test c = true)
    (fails : test stop = false) :
    (beginning ++ stop :: rest).takeWhile test = beginning ∧
      (beginning ++ stop :: rest).dropWhile test = stop :: rest := by
  rw [List.takeWhile_append_of_pos pass, List.dropWhile_append_of_pos pass, List.takeWhile_cons,
    List.dropWhile_cons, fails]
  simp

section Taking

variable {first : Char} {rest : List Char} {pieces : List Piece}

/-- An empty text has no pieces. -/
theorem Tokenized.eq_nil
    {text : List Char}
    (tokenized : Tokenized text pieces)
    (isEmpty : text = []) :
    pieces = [] := by
  cases tokenized with
  | done => rfl
  | token lexeme => exact absurd (List.append_eq_nil_iff.mp isEmpty).1 lexeme.ne_nil
  | _ => cases isEmpty

/-- A comment begins with a slash. -/
theorem not_beginsComment (notSlash : first ≠ '/') : ¬ BeginsComment (first :: rest) := by
  rintro (begins | begins) <;>
    exact notSlash (List.cons_prefix_cons.mp begins).1.symm

/-- Take a token off a text that is tokenized behind it. -/
theorem tokenized_token
    {taken : Piece × List Char}
    {kind : Token.Kind}
    (splits : Piece.Splits (first :: rest) taken)
    (isToken : taken.1.content = .token kind)
    (lexeme : Lexeme taken.1.text kind)
    (bounded : ∀ tail otherKind, Lexeme (first :: tail) otherKind -> tail <+: rest ->
      tail.length + 1 ≤ taken.1.text.length)
    (noComment : ¬ BeginsComment (first :: rest))
    (others : Tokenized taken.2 pieces) :
    Tokenized (first :: rest) (taken.1 :: pieces) := by
  obtain ⟨⟨text, content⟩, remainder⟩ := taken
  obtain ⟨-, whole⟩ := splits
  dsimp only at isToken lexeme bounded whole others
  subst isToken
  rw [← whole] at noComment ⊢
  refine .token lexeme (fun other otherKind otherLexeme begins => ?_) noComment others
  rw [whole] at begins
  cases other with
  | nil => exact absurd rfl otherLexeme.ne_nil
  | cons head tail =>
    obtain ⟨rfl, tailBegins⟩ := List.cons_prefix_cons.mp begins
    exact bounded tail otherKind otherLexeme tailBegins

/-- A letter and word characters behind it are a lexeme of the word's kind. -/
theorem wordKind_lexeme
    (letter : Piece.beginsWord first = true)
    {tail : List Char}
    (continues : ∀ c ∈ tail, Piece.continuesWord c = true) :
    Lexeme (first :: tail) (Piece.wordKind (first :: tail)) := by
  cases found : Keyword.ofText? (String.ofList (first :: tail)) with
  | none =>
    rw [Piece.wordKind, found]
    refine .identifier ((beginsWord_iff first).mp letter)
      (fun c member => (continuesWord_iff c).mp (continues c member)) fun keyword isText => ?_
    have differs := List.find?_eq_none.mp found keyword (Keyword.mem_all keyword)
    rw [← isText, String.ofList_toList] at differs
    exact differs (beq_self_eq_true _)
  | some keyword =>
    rw [Piece.wordKind, found]
    have spelled := List.find?_some found
    have isText : first :: tail = keyword.text.toList := by
      rw [eq_of_beq spelled, String.toList_ofList]
    rw [isText]
    exact .keyword keyword

/-- A letter begins a word as long as word characters go on. -/
theorem tokenized_word
    (letter : Piece.beginsWord first = true)
    (others : Tokenized (Piece.takeWord first rest).2 pieces) :
    Tokenized (first :: rest) ((Piece.takeWord first rest).1 :: pieces) := by
  refine tokenized_token (Piece.takeWord_splits first rest) rfl ?_ ?_
    (not_beginsComment (Piece.ne_of_beginsWord letter rfl)) others
  · exact wordKind_lexeme letter fun c member => List.all_eq_true.mp List.all_takeWhile c member
  · intro tail kind lexeme begins
    exact Nat.succ_le_succ (length_le_takeWhile begins (lexeme.word rfl letter))

/-- The digits in front of a text are digits. -/
theorem digits_takeWhile (text : List Char) :
    ∀ c ∈ text.takeWhile Char.isDigit, IsDigit c :=
  fun c member => (isDigit_iff c).mp (List.all_eq_true.mp List.all_takeWhile c member)

/-- Digits without a fraction behind them are a whole number. -/
theorem takeNumber_whole
    (first : Char)
    (noFraction : Piece.beginsFraction (rest.dropWhile Char.isDigit) = false) :
    Piece.takeNumber first rest =
      (⟨first :: rest.takeWhile Char.isDigit,
        .token (.number (Binary64.ofDigits (first :: rest.takeWhile Char.isDigit) []))⟩,
        rest.dropWhile Char.isDigit) := by
  have taken := Piece.takeNumber_of_stops first rest (Piece.any_head?_dropWhile _ rest) noFraction
  rwa [List.takeWhile_append_dropWhile] at taken

/-- Digits with a point and a digit behind them go on as a fraction. -/
theorem takeNumber_point
    (first : Char)
    {next : Char}
    {more : List Char}
    (found : rest.dropWhile Char.isDigit = '.' :: next :: more)
    (isDigit : next.isDigit = true) :
    Piece.takeNumber first rest =
      (⟨first :: (rest.takeWhile Char.isDigit ++ '.' :: next :: more.takeWhile Char.isDigit),
        .token (.number (Binary64.ofDigits (first :: rest.takeWhile Char.isDigit)
          (next :: more.takeWhile Char.isDigit)))⟩,
        more.dropWhile Char.isDigit) := by
  have taken := Piece.takeNumber_of_fraction first next rest more isDigit
    (Piece.any_head?_dropWhile _ more)
  rwa [List.takeWhile_append_dropWhile, ← found, List.takeWhile_append_dropWhile] at taken

/-- A number with a fraction in front of a text is split at its point. -/
theorem dropWhile_of_fraction
    {whole fraction remainder : List Char}
    {next : Char}
    (digits : ∀ c ∈ whole, c.isDigit = true)
    (isRest : whole ++ '.' :: next :: fraction ++ remainder = rest) :
    rest.takeWhile Char.isDigit = whole ∧
      rest.dropWhile Char.isDigit = '.' :: next :: (fraction ++ remainder) := by
  rw [← isRest, List.append_assoc, List.cons_append]
  exact span_eq digits rfl

/-- A digit begins a number as long as digits, one point and more digits go on. -/
theorem tokenized_number
    (isDigit : first.isDigit = true)
    (others : Tokenized (Piece.takeNumber first rest).2 pieces) :
    Tokenized (first :: rest) ((Piece.takeNumber first rest).1 :: pieces) := by
  have wholeDigits : ∀ c ∈ first :: rest.takeWhile Char.isDigit, IsDigit c := by
    rw [List.forall_mem_cons]
    exact ⟨(isDigit_iff first).mp isDigit, digits_takeWhile rest⟩
  have noComment : ¬ BeginsComment (first :: rest) := by
    refine not_beginsComment ?_
    rintro rfl
    cases isDigit
  have splits := Piece.takeNumber_splits first rest
  by_cases isFraction : Piece.beginsFraction (rest.dropWhile Char.isDigit) = true
  · obtain ⟨next, more, found, nextDigit⟩ : ∃ next more,
        rest.dropWhile Char.isDigit = '.' :: next :: more ∧ next.isDigit = true := by
      unfold Piece.beginsFraction at isFraction
      split at isFraction
      · rename_i next more found
        exact ⟨next, more, found, isFraction⟩
      · cases isFraction
    rw [takeNumber_point first found nextDigit] at splits others ⊢
    refine tokenized_token splits rfl ?_ ?_ noComment others
    · refine Lexeme.fraction (List.cons_ne_nil _ _) wholeDigits (List.cons_ne_nil _ _) ?_
      rw [List.forall_mem_cons]
      exact ⟨(isDigit_iff next).mp nextDigit, digits_takeWhile more⟩
    · intro tail kind lexeme begins
      obtain ⟨whole, digits, isTail⟩ := lexeme.digits rfl isDigit
      simp only [List.length_append, List.length_cons]
      rcases isTail with rfl | ⟨head, fraction, rfl, moreDigits⟩
      · have bounded := length_le_takeWhile begins digits
        omega
      · obtain ⟨remainder, isRest⟩ := begins
        -- The whole part ends at the point, so a longer token would have a longer fraction.
        obtain ⟨isWhole, isFound⟩ := dropWhile_of_fraction digits isRest
        rw [isFound, List.cons.injEq, List.cons.injEq] at found
        have bounded := length_le_takeWhile ⟨remainder, found.2.2⟩
          (List.forall_mem_cons.mp moreDigits).2
        rw [isWhole, List.length_append, List.length_cons, List.length_cons]
        omega
  · rw [Bool.not_eq_true] at isFraction
    rw [takeNumber_whole first isFraction] at splits others ⊢
    refine tokenized_token splits rfl (.number (List.cons_ne_nil _ _) wholeDigits) ?_ noComment
      others
    intro tail kind lexeme begins
    obtain ⟨whole, digits, isTail⟩ := lexeme.digits rfl isDigit
    rcases isTail with rfl | ⟨head, fraction, rfl, moreDigits⟩
    · exact Nat.succ_le_succ (length_le_takeWhile begins digits)
    · obtain ⟨remainder, isRest⟩ := begins
      have headDigit : Piece.beginsFraction (rest.dropWhile Char.isDigit) = head.isDigit := by
        rw [(dropWhile_of_fraction digits isRest).2]
        rfl
      rw [isFraction, (List.forall_mem_cons.mp moreDigits).1] at headDigit
      cases headDigit

/-- A quote begins a string up to the next quote, or an unterminated one to the end. -/
theorem tokenized_string
    (others : Tokenized (Piece.takeString rest).2 pieces) :
    Tokenized ('"' :: rest) ((Piece.takeString rest).1 :: pieces) := by
  have unquoted : ∀ c ∈ rest.takeWhile (· != '"'), c ≠ '"' := fun c member =>
    bne_iff_ne.mp (List.all_eq_true.mp List.all_takeWhile c member)
  have whole := List.takeWhile_append_dropWhile (p := (· != '"')) (l := rest)
  have splits := Piece.takeString_splits rest
  cases found : rest.dropWhile (· != '"') with
  | nil =>
    rw [found, List.append_nil] at whole
    rw [Piece.takeString, found] at others ⊢
    dsimp only at others ⊢
    rw [others.eq_nil rfl]
    rw [whole] at unquoted ⊢
    exact .unclosedString fun member => unquoted '"' member rfl
  | cons closing remainder =>
    have isQuote : closing = '"' := by
      have stops := Piece.any_head?_dropWhile (· != '"') rest
      rw [found, List.head?_cons, Option.any_some, bne_eq_false_iff_eq] at stops
      exact stops
    subst isQuote
    rw [Piece.takeString, found] at others splits ⊢
    dsimp only at others splits ⊢
    refine tokenized_token splits rfl (.string fun member => unquoted '"' member rfl) ?_
      (not_beginsComment (by decide)) others
    intro tail kind lexeme begins
    obtain ⟨contents, noQuote, rfl⟩ := lexeme.quoted rfl
    have passes : ∀ c ∈ contents, (c != '"') = true := fun c member =>
      bne_iff_ne.mpr fun isQuote => noQuote (isQuote ▸ member)
    have bounded := length_le_takeWhile ((List.prefix_append contents ['"']).trans begins) passes
    simp only [List.length_append, List.length_cons, List.length_nil]
    omega

/-- A symbol takes an equals sign behind it where the two together are one. -/
theorem tokenized_symbol
    {symbol : Symbol}
    (notWord : ¬ Piece.beginsWord first = true)
    (notDigit : ¬ first.isDigit = true)
    (notQuote : first ≠ '"')
    (noComment : ¬ BeginsComment (first :: rest))
    (isSymbol : Symbol.ofChar? first = some symbol)
    (others : Tokenized (Piece.takeSymbol symbol first rest).2 pieces) :
    Tokenized (first :: rest) ((Piece.takeSymbol symbol first rest).1 :: pieces) := by
  have splits := Piece.takeSymbol_splits symbol first rest
  have isText := text_of_ofChar? isSymbol
  have symbolic : ∀ tail kind, Lexeme (first :: tail) kind ->
      tail = [] ∨ tail = ['='] ∧ ∃ longer, symbol.withEqual? = some longer := by
    intro tail kind lexeme
    obtain ⟨found, isFound⟩ := lexeme.symbolic rfl notWord notDigit notQuote
    obtain ⟨short, isShort, isTail⟩ := ofChar?_head_text isFound
    rw [isSymbol, Option.some_inj] at isShort
    subst isShort
    exact isTail.imp_right fun longer => ⟨longer.1, found, longer.2⟩
  by_cases isLonger : ∃ longer remainder,
      symbol.withEqual? = some longer ∧ rest = '=' :: remainder
  · obtain ⟨longer, remainder, isLonger, rfl⟩ := isLonger
    rw [Piece.takeSymbol_longer first isLonger] at splits others ⊢
    have lexeme : Lexeme [first, '='] (.symbol longer) := by
      have spelled := text_of_withEqual? isLonger
      rw [isText, List.singleton_append] at spelled
      exact spelled ▸ .symbol longer
    refine tokenized_token splits rfl lexeme ?_ noComment others
    intro tail kind lexeme _
    rcases symbolic tail kind lexeme with rfl | ⟨rfl, -⟩
    · exact Nat.le_succ _
    · exact Nat.le_refl _
  · rw [Piece.takeSymbol_single first fun longer remainder hasLonger begins =>
      isLonger ⟨longer, remainder, hasLonger, begins⟩] at splits others ⊢
    have lexeme : Lexeme [first] (.symbol symbol) := isText ▸ .symbol symbol
    refine tokenized_token splits rfl lexeme ?_ noComment others
    intro tail kind lexeme begins
    rcases symbolic tail kind lexeme with rfl | ⟨rfl, longer, hasLonger⟩
    · exact Nat.le_refl _
    · obtain ⟨remainder, isRest⟩ := begins
      exact absurd ⟨longer, remainder, hasLonger, isRest.symm⟩ isLonger

/-- Two slashes begin a comment up to the end of the line. -/
theorem tokenized_lineComment
    (others : Tokenized (Piece.takeLineComment rest).2 pieces) :
    Tokenized ('/' :: '/' :: rest) ((Piece.takeLineComment rest).1 :: pieces) := by
  have oneLine : '\n' ∉ rest.takeWhile (· != '\n') := by
    intro member
    have differs := List.all_eq_true.mp List.all_takeWhile '\n' member
    exact bne_iff_ne.mp differs rfl
  have ends : rest.dropWhile (· != '\n') = [] ∨
      ∃ others, rest.dropWhile (· != '\n') = '\n' :: others := by
    have stops := Piece.any_head?_dropWhile (· != '\n') rest
    cases found : rest.dropWhile (· != '\n') with
    | nil => exact .inl rfl
    | cons head tail =>
      rw [found, List.head?_cons, Option.any_some, bne_eq_false_iff_eq] at stops
      exact .inr ⟨tail, by rw [stops]⟩
  have cut := Tokenized.lineComment oneLine ends others
  rwa [List.cons_append, List.cons_append, List.takeWhile_append_dropWhile] at cut

/-- A block comment is searched for its first closing mark. -/
theorem commentEnd?_spec (skipped : Nat) (text : List Char) :
    match Piece.commentEnd? skipped text with
    | none => ¬ closingMark <:+: text
    | some length => ∃ body remainder, text = body ++ closingMark ++ remainder ∧
        length = skipped + body.length + 2 ∧ ¬ closingMark <:+: body ++ ['*'] := by
  fun_induction Piece.commentEnd? skipped text with
  | case1 skipped => exact fun occurs => absurd occurs.length_le (by decide)
  | case2 skipped rest =>
    exact ⟨[], rest, rfl, rfl, fun occurs => absurd occurs.length_le (by decide)⟩
  | case3 skipped first rest notClosing inductionHypothesis =>
    -- The mark does not stand here, so it occurs where it occurs in the rest.
    have notHere : ∀ text, closingMark <+: first :: text ->
        (∀ others, text = '/' :: others -> ∃ others, rest = '/' :: others) -> False := by
      intro text begins slash
      obtain ⟨isStar, remainder, isText⟩ := List.cons_prefix_cons.mp begins
      obtain ⟨others, isRest⟩ := slash remainder isText.symm
      exact notClosing others isStar.symm isRest
    split at inductionHypothesis
    · intro occurs
      rcases List.infix_cons_iff.mp occurs with here | later
      · exact notHere rest here fun others isRest => ⟨others, isRest⟩
      · exact inductionHypothesis later
    · obtain ⟨body, remainder, rfl, rfl, firstMark⟩ := inductionHypothesis
      refine ⟨first :: body, remainder, rfl, ?_, ?_⟩
      · rw [List.length_cons]
        omega
      · intro occurs
        rcases List.infix_cons_iff.mp occurs with here | later
        · refine notHere (body ++ ['*']) here fun others isText => ?_
          cases body with
          | nil => cases isText
          | cons head tail =>
            rw [List.cons_append, List.cons.injEq] at isText
            exact ⟨tail ++ closingMark ++ remainder, by rw [isText.1]; rfl⟩
        · exact firstMark later

/-- A slash and a star begin a comment up to the first star and slash, or an unterminated
one to the end. -/
theorem tokenized_blockComment
    (others : Tokenized (Piece.takeBlockComment rest).2 pieces) :
    Tokenized ('/' :: '*' :: rest) ((Piece.takeBlockComment rest).1 :: pieces) := by
  have searched := commentEnd?_spec 0 rest
  unfold Piece.takeBlockComment at others ⊢
  split at searched
  · rename_i notFound
    rw [notFound] at others ⊢
    rw [others.eq_nil rfl]
    exact .unclosedComment searched
  · rename_i length found
    rw [found] at others ⊢
    obtain ⟨body, remainder, rfl, rfl, firstMark⟩ := searched
    dsimp only at others ⊢
    have taken : (body ++ closingMark).length = 0 + body.length + 2 := by
      rw [List.length_append, Nat.zero_add]
      rfl
    rw [List.drop_left' taken] at others
    rw [List.take_left' taken]
    exact .blockComment firstMark others

end Taking

/-- Taking a piece off a text follows the lexical grammar. -/
theorem tokenized_next
    {first : Char}
    {rest : List Char}
    {pieces : List Piece}
    (others : Tokenized (Piece.next first rest).2 pieces) :
    Tokenized (first :: rest) ((Piece.next first rest).1 :: pieces) := by
  by_cases isBlank : Piece.isBlank first = true
  · rw [Piece.next_of_blank isBlank] at others ⊢
    exact .blank ((isBlank_iff first).mp isBlank) others
  by_cases isWord : Piece.beginsWord first = true
  · rw [Piece.next_of_word isBlank isWord] at others ⊢
    exact tokenized_word isWord others
  by_cases isDigit : first.isDigit = true
  · rw [Piece.next_of_digit isBlank isWord isDigit] at others ⊢
    exact tokenized_number isDigit others
  by_cases isQuote : first = '"'
  · subst isQuote
    rw [Piece.next_of_quote] at others ⊢
    exact tokenized_string others
  by_cases isComment : BeginsComment (first :: rest)
  · rcases isComment with ⟨remainder, isText⟩ | ⟨remainder, isText⟩
    · obtain ⟨rfl, rfl⟩ : '/' = first ∧ '/' :: remainder = rest := List.cons.inj isText
      rw [Piece.next_of_lineComment] at others ⊢
      exact tokenized_lineComment others
    · obtain ⟨rfl, rfl⟩ : '/' = first ∧ '*' :: remainder = rest := List.cons.inj isText
      rw [Piece.next_of_blockComment] at others ⊢
      exact tokenized_blockComment others
  have notLineComment : ∀ remainder, first = '/' -> rest = '/' :: remainder -> False := by
    rintro remainder rfl rfl
    exact isComment (.inl ⟨remainder, rfl⟩)
  have notBlockComment : ∀ remainder, first = '/' -> rest = '*' :: remainder -> False := by
    rintro remainder rfl rfl
    exact isComment (.inr ⟨remainder, rfl⟩)
  have notQuote : ¬ (first == '"') = true := fun same => isQuote (eq_of_beq same)
  cases isSymbol : Symbol.ofChar? first with
  | some symbol =>
    rw [Piece.next_of_symbol isBlank isWord isDigit notQuote notLineComment notBlockComment
      isSymbol] at others ⊢
    exact tokenized_symbol isWord isDigit isQuote isComment isSymbol others
  | none =>
    -- No branch of the scanner takes the character, and no token begins with it.
    have isFault : Piece.next first rest =
        Piece.single first rest (.fault (.unexpectedCharacter first)) := by
      rw [Piece.next, if_neg isBlank, if_neg isWord, if_neg isDigit, if_neg notQuote, isSymbol]
      · exact notLineComment
      · exact notBlockComment
    rw [isFault] at others ⊢
    refine .unexpected (fun member => isBlank ((isBlank_iff first).mpr member)) ?_ others
    intro text kind lexeme
    obtain ⟨found, isText⟩ := lexeme.symbolic rfl isWord isDigit isQuote
    obtain ⟨short, isShort, -⟩ := ofChar?_head_text isText
    rw [isSymbol] at isShort
    cases isShort

/-- The pieces of a text are those of the lexical grammar. -/
theorem tokenized_cut (text : List Char) : Tokenized text (Piece.cut text) := by
  induction length : text.length using Nat.strongRecOn generalizing text with
  | ind length inductionHypothesis =>
    cases text with
    | nil =>
      rw [Piece.cut_nil]
      exact .done
    | cons first rest =>
      rw [Piece.cut_cons]
      exact tokenized_next
        (inductionHypothesis _ (length ▸ Piece.length_next_lt first rest) _ rfl)

end Lexical

/-! ## Items and bytes -/

namespace Piece

/-- Whether a piece is a token or a fault. -/
def isItem (piece : Piece) : Bool :=
  match piece.content with
  | .token _ => true
  | .fault _ => true
  | .blank => false
  | .comment => false

/-- An item is that of a piece: a token of its kind that is spelled like it, or
its fault. -/
def Yields (piece : Piece) (item : Scan.Item) : Prop :=
  match piece.content, item with
  | .token kind, .token token => token.kind = kind ∧ token.lexeme = String.ofList piece.text
  | .fault fault, .fault _ other => other = fault
  | _, _ => False

/-- The number of bytes that some pieces take up. -/
def byteCount (pieces : List Piece) : Nat :=
  (pieces.map fun piece => (String.ofList piece.text).utf8ByteSize).sum

/-- The bytes counted for pieces are those of their text. -/
theorem byteCount_eq (pieces : List Piece) :
    byteCount pieces = (String.ofList (pieces.flatMap Piece.text)).utf8ByteSize := by
  induction pieces with
  | nil => rfl
  | cons first rest inductionHypothesis =>
    rw [List.flatMap_cons, String.ofList_append, String.utf8ByteSize_append,
      ← inductionHypothesis]
    rfl

/-- The bytes of a piece among those of a text. -/
theorem extract_piece (before after : List Piece) (piece : Piece) :
    (String.ofList ((before ++ piece :: after).flatMap Piece.text)).toUTF8.extract
        (byteCount before) (byteCount (before ++ [piece])) =
      (String.ofList piece.text).toUTF8 := by
  have ends : byteCount (before ++ [piece]) =
      (String.ofList (before.flatMap Piece.text)).toByteArray.size +
        (String.ofList piece.text).toByteArray.size := by
    rw [byteCount_eq, List.flatMap_append, List.flatMap_singleton, String.ofList_append,
      String.utf8ByteSize_append, String.size_toByteArray, String.size_toByteArray]
  rw [ends, byteCount_eq, List.flatMap_append, List.flatMap_cons, String.ofList_append,
    String.ofList_append, String.toUTF8_eq_toByteArray, String.toUTF8_eq_toByteArray,
    String.toByteArray_append, String.toByteArray_append, ← String.size_toByteArray]
  generalize (String.ofList (before.flatMap Piece.text)).toByteArray = first
  generalize (String.ofList piece.text).toByteArray = second
  rw [← Nat.add_zero first.size, Nat.add_assoc, ByteArray.extract_append_size_add, Nat.zero_add]
  exact ByteArray.extract_append_eq_left rfl

end Piece

namespace Scan

/-- Every item comes from one of the pieces. -/
theorem exists_of_forall₂
    {pieces : List Piece}
    {items : List Item}
    {item : Item}
    (yielded : List.Forall₂ Piece.Yields pieces items)
    (member : item ∈ items) :
    ∃ piece ∈ pieces, piece.Yields item := by
  obtain ⟨index, inside, rfl⟩ := List.getElem_of_mem member
  have inPieces : index < pieces.length := yielded.length_eq ▸ inside
  exact ⟨pieces[index], List.getElem_mem inPieces, yielded.get inPieces inside⟩

/-- The items of a text are yielded, one by one, by its pieces that are no blanks. -/
theorem items_yielded (line : Nat) (pieces : List Piece) :
    List.Forall₂ Piece.Yields (pieces.filter Piece.isItem) (itemsFrom line pieces) := by
  induction pieces generalizing line with
  | nil => exact .nil
  | cons first rest inductionHypothesis =>
    obtain ⟨text, content⟩ := first
    cases content with
    | token kind => exact .cons ⟨rfl, rfl⟩ (inductionHypothesis _)
    | fault fault => exact .cons rfl (inductionHypothesis _)
    | blank => exact inductionHypothesis _
    | comment => exact inductionHypothesis _

end Scan

namespace Lexical

/-- A token of the lexical grammar is not the end of the input. -/
theorem Tokenized.ne_endOfInput
    {text : List Char}
    {pieces : List Piece}
    (tokenized : Tokenized text pieces) :
    ∀ piece ∈ pieces, piece.content ≠ .token .endOfInput := by
  induction tokenized with
  | done => simp
  | token lexeme _ _ _ inductionHypothesis =>
    refine List.forall_mem_cons.mpr ⟨?_, inductionHypothesis⟩
    cases lexeme <;> simp
  | unclosedString => simp
  | unclosedComment => simp
  | _ =>
    rename_i inductionHypothesis
    exact List.forall_mem_cons.mpr ⟨by simp, inductionHypothesis⟩

end Lexical

/-- Scanning tokenizes a source text.  Its pieces follow one another without a gap,
from the first byte to the last, and lie between characters.  Each piece that is a
token or a fault has one item, in order, and the end of the input comes last and
nowhere else. -/
theorem scan_is_maximal_munch (source : String) :
    Lexical.Tokenized source.toList (pieces source) ∧
      (∀ before piece after, pieces source = before ++ piece :: after ->
        source.toUTF8.extract (Piece.byteCount before) (Piece.byteCount (before ++ [piece])) =
            (String.ofList piece.text).toUTF8 ∧
          String.Pos.Raw.IsValid source ⟨Piece.byteCount before⟩ ∧
          String.Pos.Raw.IsValid source ⟨Piece.byteCount (before ++ [piece])⟩) ∧
      Piece.byteCount (pieces source) = source.utf8ByteSize ∧
      List.Forall₂ Piece.Yields ((pieces source).filter Piece.isItem)
        (Scan.ofSource source).items.toList ∧
      ∃ line, (Scan.ofSource source).allItems =
          (Scan.ofSource source).items.toList ++ [.token (.endOfInput line)] ∧
        ∀ token, .token token ∈ (Scan.ofSource source).items.toList ->
          token.kind ≠ .endOfInput := by
  have tokenized : Lexical.Tokenized source.toList (pieces source) :=
    Lexical.tokenized_cut source.toList
  have boundary : ∀ before after, pieces source = before ++ after ->
      String.Pos.Raw.IsValid source ⟨Piece.byteCount before⟩ := by
    intro before after split
    refine String.Pos.Raw.isValid_iff_exists_append.mpr
      ⟨.ofList (before.flatMap Piece.text), .ofList (after.flatMap Piece.text), ?_, ?_⟩
    · rw [← String.ofList_append, ← List.flatMap_append, ← split, flatMap_pieces,
        String.ofList_toList]
    · rw [Piece.byteCount_eq]
      rfl
  have yielded : List.Forall₂ Piece.Yields ((pieces source).filter Piece.isItem)
      (Scan.ofSource source).items.toList := by
    rw [Scan.items_ofSource]
    exact Scan.items_yielded 1 _
  refine ⟨tokenized, fun before piece after split => ⟨?_, ?_, ?_⟩, ?_, ?_, _, rfl, ?_⟩
  · have bytes := Piece.extract_piece before after piece
    rwa [← split, flatMap_pieces, String.ofList_toList] at bytes
  · exact boundary before (piece :: after) split
  · exact boundary (before ++ [piece]) after (by rw [split, List.append_assoc]; rfl)
  · rw [Piece.byteCount_eq, flatMap_pieces, String.ofList_toList]
  · exact yielded
  · intro token member isEnd
    obtain ⟨piece, isPiece, yields⟩ := Scan.exists_of_forall₂ yielded member
    obtain ⟨text, content⟩ := piece
    have noEnd := tokenized.ne_endOfInput _ (List.mem_of_mem_filter isPiece)
    cases content with
    | token kind => exact noEnd (congrArg _ (yields.1.symm.trans isEnd))
    | _ => exact yields

end TreeWalk
