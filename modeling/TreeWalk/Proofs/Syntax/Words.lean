import TreeWalk.Proofs.Number.ReadBack
import TreeWalk.Proofs.Scan.NormalForm
import TreeWalk.Proofs.Syntax.Outline

/-!
# The words of printed trees

The names and operators of a tree are tokens of a source text, so each of them is scanned
as that token again if it stands alone.  So is the printed form of every literal that is
neither a string nor an infinite number.  All of them are words, without blanks and
parentheses.
-/

namespace TreeWalk

/-- The text of a kind of token that has only one spelling. -/
def Token.Kind.text? : Token.Kind -> Option String
  | .symbol found => some (String.ofList found.text)
  | .keyword word => some word.text
  | _ => none

/-- The spellings of the tokens that have a role.  Names have too many of them to be
listed. -/
def Role.spellings : Role -> List String
  | sign => ["!", "-"]
  | operator => ["/", "*", "-", "+", ">", ">=", "<", "<=", "!=", "=="]
  | connective => ["and", "or"]
  | name => []
  | closing => [")"]
  | receiver => ["this"]
  | ancestor => ["super"]
  | returning => ["return"]

/-- A token that some text is scanned into. -/
def Token.IsScanned (token : Token) : Prop :=
  ∃ text, (⟨token.lexeme.toList, .token token.kind⟩ : Piece) ∈ Piece.cut text

/-- The token that a word is scanned as, if it is one. -/
def Token.ofWord? (word : String) : Option Token :=
  match Piece.cut word.toList with
  | [⟨_, .token kind⟩] => some ⟨kind, word, 0⟩
  | _ => none

/-- A token of the items is a piece of the text. -/
theorem Scan.mem_of_itemsFrom
    {line : Nat}
    {pieces : List Piece}
    {token : Token}
    (member : token ∈ (itemsFrom line pieces).filterMap Item.token?) :
    (⟨token.lexeme.toList, .token token.kind⟩ : Piece) ∈ pieces := by
  induction pieces generalizing line with
  | nil => simp [itemsFrom] at member
  | cons first rest inductionHypothesis =>
    rw [itemsFrom, List.filterMap_append, List.mem_append] at member
    rcases member with here | later
    · obtain ⟨text, content⟩ := first
      cases content with
      | token kind =>
        simp only [Piece.item?, Option.toList_some, List.filterMap_cons, Item.token?,
          List.filterMap_nil, List.mem_singleton] at here
        rw [here, String.toList_ofList]
        exact List.mem_cons_self
      | _ => simp [Piece.item?, Item.token?] at here
    · exact List.mem_cons_of_mem first (inductionHypothesis later)

/-- Every token of a source is scanned. -/
theorem Scan.isScanned_tokens (source : String) :
    ∀ token ∈ (Scan.ofSource source).tokens, token.IsScanned := by
  intro token member
  rw [tokens_eq_filterMap, items_ofSource] at member
  exact ⟨source.toList, mem_of_itemsFrom member⟩

/-- The text of a token is a lexeme of its kind. -/
theorem Lexical.Tokenized.lexeme
    {text : List Char}
    {pieces : List Piece}
    (tokenized : Tokenized text pieces) :
    ∀ piece ∈ pieces, ∀ kind, piece.content = .token kind -> Lexeme piece.text kind := by
  induction tokenized with
  | done => simp
  | token lexeme longest noComment others inductionHypothesis =>
    refine List.forall_mem_cons.mpr ⟨?_, inductionHypothesis⟩
    rintro kind ⟨⟩
    exact lexeme
  | unclosedString unclosed => simp
  | unclosedComment unclosed => simp
  | _ =>
    rename_i inductionHypothesis
    exact List.forall_mem_cons.mpr ⟨fun kind isToken => (nomatch isToken), inductionHypothesis⟩

/-- A word that is cut into one token is that token. -/
theorem Token.ofWord?_of_cut
    {word : String}
    {kind : Token.Kind}
    (isCut : Piece.cut word.toList = [⟨word.toList, .token kind⟩]) :
    Token.ofWord? word = some ⟨kind, word, 0⟩ := by
  rw [Token.ofWord?, isCut]

/-- A keyword's text is the keyword. -/
theorem Token.ofWord?_keyword (keyword : Keyword) :
    Token.ofWord? keyword.text = some ⟨.keyword keyword, keyword.text, 0⟩ := by
  apply Token.ofWord?_of_cut
  obtain ⟨first, rest, isText⟩ := List.exists_cons_of_ne_nil
    (Lexical.Lexeme.keyword keyword).ne_nil
  have taken : Piece.next first rest = (⟨first :: rest, .token (.keyword keyword)⟩, []) := by
    cases keyword <;> cases isText <;> rfl
  rw [isText, Piece.cut_cons, taken, Piece.cut_nil]

namespace Token.IsScanned

variable {token : Token}

/-- A scanned token's lexeme is cut into that token alone. -/
theorem cut (scanned : token.IsScanned) :
    Piece.cut token.lexeme.toList = [⟨token.lexeme.toList, .token token.kind⟩] := by
  obtain ⟨text, member⟩ := scanned
  obtain ⟨first, tail, isText, taken⟩ := Piece.standsAlone_cut text _ member rfl
  have alone := taken [] rfl
  rw [List.append_nil] at alone
  dsimp only at isText
  rw [isText, Piece.cut_cons, alone, Piece.cut_nil, isText]

/-- A scanned token's lexeme is that token, but for its line. -/
theorem ofWord? (scanned : token.IsScanned) :
    Token.ofWord? token.lexeme = some (token.reline fun _ => 0) :=
  Token.ofWord?_of_cut scanned.cut

/-- A scanned token's lexeme is one of its kind. -/
theorem isLexeme (scanned : token.IsScanned) :
    Lexical.Lexeme token.lexeme.toList token.kind := by
  obtain ⟨text, member⟩ := scanned
  exact (Lexical.tokenized_cut text).lexeme _ member _ rfl

/-- A token of a kind that has only one spelling is spelled so. -/
theorem lexeme_eq
    {text : String}
    (scanned : token.IsScanned)
    (isText : token.kind.text? = some text) :
    token.lexeme = text := by
  have lexeme := scanned.isLexeme
  apply String.toList_injective
  generalize token.lexeme.toList = spelled at lexeme
  generalize token.kind = kind at lexeme isText
  cases lexeme with
  | symbol symbol =>
    cases isText
    rw [String.toList_ofList]
  | keyword keyword =>
    cases isText
    rfl
  | _ => cases isText

/-- A token that suits a role other than a name has one of the role's spellings. -/
theorem lexeme_mem_spellings
    {role : Role}
    (scanned : token.IsScanned)
    (suitable : token.kind ∈ role.kinds)
    (notName : role ≠ .name) :
    token.lexeme ∈ role.spellings := by
  have spelled : ∀ kind ∈ role.kinds, kind.text?.any (· ∈ role.spellings) = true := by
    cases role with
    | name => exact absurd rfl notName
    | _ => decide
  obtain ⟨text, isText, member⟩ := (Option.any_eq_true _ _).mp (spelled token.kind suitable)
  rw [scanned.lexeme_eq isText]
  exact of_decide_eq_true member

end Token.IsScanned

/-- A literal that is neither a string nor an infinite number. -/
def Literal.IsLegible : Literal -> Prop
  | .number value => value.isFinite = true
  | .string _ => False
  | .boolean _ => True
  | .null => True

/-- A leaf is no literal, or a legible one. -/
def Leaf.IsLegible : Leaf -> Prop
  | .token _ _ => True
  | .literal value => value.IsLegible

instance : DecidablePred Literal.IsLegible
  | .number value => inferInstanceAs (Decidable (value.isFinite = true))
  | .string _ => inferInstanceAs (Decidable False)
  | .boolean _ => inferInstanceAs (Decidable True)
  | .null => inferInstanceAs (Decidable True)

instance : DecidablePred Leaf.IsLegible
  | .token _ _ => inferInstanceAs (Decidable True)
  | .literal value => inferInstanceAs (Decidable value.IsLegible)

namespace Mark

open Lexical

theorem isPlain_of_continuesWord
    {c : Char}
    (continues : Piece.continuesWord c = true) :
    isPlain c = true := by
  rw [isPlain, Bool.and_eq_true, Bool.and_eq_true, bne_iff_ne, bne_iff_ne, bne_iff_ne]
  refine ⟨⟨?_, ?_⟩, ?_⟩ <;> rintro rfl <;> cases continues

theorem isPlain_of_isDigit {c : Char} (isDigit : IsDigit c) : isPlain c = true :=
  isPlain_of_continuesWord ((continuesWord_iff c).mpr (.inr isDigit))

/-- A lexeme of plain characters is a word. -/
theorem isWord_of_lexeme
    {word : String}
    {kind : Token.Kind}
    (lexeme : Lexeme word.toList kind)
    (plain : ∀ c ∈ word.toList, isPlain c = true) :
    IsWord word :=
  ⟨fun empty => lexeme.ne_nil (String.toList_eq_nil_iff.mpr empty), plain⟩

/-- A number is a word. -/
theorem isWord_of_number
    {word : String}
    {value : Float}
    (lexeme : Lexeme word.toList (.number value)) :
    IsWord word := by
  apply isWord_of_lexeme lexeme
  generalize word.toList = text at lexeme
  cases lexeme with
  | number nonempty digits => exact fun c member => isPlain_of_isDigit (digits c member)
  | fraction nonempty digits someFraction moreDigits =>
    rw [List.forall_mem_append, List.forall_mem_cons]
    exact ⟨fun c member => isPlain_of_isDigit (digits c member), rfl,
      fun c member => isPlain_of_isDigit (moreDigits c member)⟩

/-- An identifier is a word. -/
theorem isWord_of_identifier
    {word : String}
    (lexeme : Lexeme word.toList .identifier) :
    IsWord word := by
  apply isWord_of_lexeme lexeme
  generalize word.toList = text at lexeme
  cases lexeme with
  | identifier letter lettersOrDigits notReserved =>
    rw [List.forall_mem_cons]
    refine ⟨isPlain_of_continuesWord ((continuesWord_iff _).mpr (.inl letter)), ?_⟩
    intro c member
    exact isPlain_of_continuesWord ((continuesWord_iff c).mpr (lettersOrDigits c member))

end Mark

/-- A scanned token that suits a printed role is a word. -/
theorem Role.isWord_of_kinds
    {role : Role}
    {token : Token}
    (isPrinted : role.isPrinted = true)
    (suitable : token.kind ∈ role.kinds)
    (scanned : token.IsScanned) :
    Mark.IsWord token.lexeme := by
  by_cases isName : role = .name
  · subst isName
    have lexeme := scanned.isLexeme
    rw [List.mem_singleton.mp suitable] at lexeme
    exact Mark.isWord_of_identifier lexeme
  · have areWords : ∀ text ∈ role.spellings, Mark.IsWord text := by
      revert isPrinted
      cases role <;> decide
    exact areWords _ (scanned.lexeme_mem_spellings suitable isName)

/-- A literal that is drawn from scanned tokens, and is legible, is printed as a word that
is scanned as the literal. -/
theorem Literal.ofWord?_render
    {value : Literal}
    (fits : (Leaf.literal value).Fits Token.IsScanned)
    (legible : value.IsLegible) :
    Mark.IsWord value.render ∧
      ∃ kind, Token.ofWord? value.render = some ⟨kind, value.render, 0⟩ ∧
        Grammar.literal? kind = some value := by
  cases value with
  | number value =>
    obtain ⟨token, scanned, isNumber⟩ : ∃ token : Token, token.IsScanned ∧
        Grammar.literal? token.kind = some (.number value) := by
      rcases fits with madeUp | drawn
      · cases madeUp
      · exact drawn
    have lexeme := scanned.isLexeme
    have isKind : token.kind = .number value := by
      generalize token.kind = kind at isNumber
      unfold Grammar.literal? at isNumber
      split at isNumber <;> cases isNumber
      rfl
    rw [isKind] at lexeme
    have displayed := Number.lexeme_display lexeme legible
    exact ⟨Mark.isWord_of_number displayed, .number value,
      Token.ofWord?_of_cut (Piece.cut_number displayed), rfl⟩
  | string contents => exact legible.elim
  | boolean value =>
    cases value with
    | false => exact ⟨by decide, _, Token.ofWord?_keyword .falseWord, rfl⟩
    | true => exact ⟨by decide, _, Token.ofWord?_keyword .trueWord, rfl⟩
  | null => exact ⟨by decide, _, Token.ofWord?_keyword .nullWord, rfl⟩

/-- A legible leaf of scanned tokens is clear. -/
theorem Leaf.clear
    {leaf : Leaf}
    (fits : leaf.Fits Token.IsScanned)
    (legible : leaf.IsLegible) :
    leaf.Clear := by
  cases leaf with
  | token role found => exact fun isPrinted => Role.isWord_of_kinds isPrinted fits.1 fits.2
  | literal value => exact (Literal.ofWord?_render fits legible).1

end TreeWalk
