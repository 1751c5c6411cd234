import TreeWalk.Proofs.Grammar.Leaves
import TreeWalk.Syntax.Printer

/-!
# Outlines of printed trees

A printed tree is a sequence of marks: opening and closing parentheses, and words with
blanks or parentheses around them.  The marks show the outline of the tree, in which a
node is a list that begins with a word.  Main statement: if the words of a tree have
neither blanks nor parentheses in them, then its printed form shows its outline, and two
trees that are printed alike have the same outline.
-/

namespace TreeWalk

/-- What a printed tree is made of. -/
inductive Mark where
  | opening
  | closing
  | word (text : String)
deriving DecidableEq

namespace Mark

/-- Whether a character is part of a word. -/
def isPlain (c : Char) : Bool :=
  c != ' ' && c != '(' && c != ')'

/-- The word of some letters, if there are any. -/
def ofLetters (letters : List Char) : List Mark :=
  if letters.isEmpty then [] else [.word (String.ofList letters)]

/-- The marks of a text, the letters in front of which belong to its first word. -/
def scan (letters : List Char) : List Char -> List Mark
  | [] => ofLetters letters
  | c :: rest =>
    if c == ' ' then ofLetters letters ++ scan [] rest
    else if c == '(' then ofLetters letters ++ .opening :: scan [] rest
    else if c == ')' then ofLetters letters ++ .closing :: scan [] rest
    else scan (letters ++ [c]) rest

/-- A text that is read as one word. -/
def IsWord (text : String) : Prop :=
  text ≠ "" ∧ ∀ c ∈ text.toList, isPlain c = true

instance (text : String) : Decidable (IsWord text) :=
  decidable_of_iff (text ≠ "" ∧ text.toList.all isPlain = true) (by rw [IsWord, List.all_eq_true])

/-- A text that does not go on with the word before it. -/
def BeginsApart (text : List Char) : Prop :=
  text.head?.any isPlain = false

@[simp] theorem scan_opening (rest : List Char) :
    scan [] ('(' :: rest) = .opening :: scan [] rest :=
  rfl

@[simp] theorem scan_closing (rest : List Char) :
    scan [] (')' :: rest) = .closing :: scan [] rest :=
  rfl

/-- A plain character joins the word being read. -/
theorem scan_of_isPlain
    {c : Char}
    (plain : isPlain c = true)
    (letters rest : List Char) :
    scan letters (c :: rest) = scan (letters ++ [c]) rest := by
  simp only [isPlain, Bool.and_eq_true, bne_iff_ne] at plain
  obtain ⟨⟨notBlank, notOpening⟩, notClosing⟩ := plain
  rw [scan, if_neg (by simpa using notBlank), if_neg (by simpa using notOpening),
    if_neg (by simpa using notClosing)]

/-- Plain characters join the word being read. -/
theorem scan_letters
    {word : List Char}
    (plain : ∀ c ∈ word, isPlain c = true)
    (letters rest : List Char) :
    scan letters (word ++ rest) = scan (letters ++ word) rest := by
  induction word generalizing letters with
  | nil => simp
  | cons first others inductionHypothesis =>
    rw [List.forall_mem_cons] at plain
    rw [List.cons_append, scan_of_isPlain plain.1, inductionHypothesis plain.2, List.append_assoc,
      List.singleton_append]

/-- In front of a mark, the word being read ends. -/
theorem scan_apart
    {rest : List Char}
    (apart : BeginsApart rest)
    (letters : List Char) :
    scan letters rest = ofLetters letters ++ scan [] rest := by
  cases rest with
  | nil => simp [scan, ofLetters]
  | cons c others =>
    simp only [BeginsApart, List.head?_cons, Option.any_some, isPlain, Bool.and_eq_false_iff,
      bne_eq_false_iff_eq] at apart
    rcases apart with (rfl | rfl) | rfl <;> rfl

/-- A text shows marks, before anything that does not go on with its last word. -/
def Shows (text : List Char) (marks : List Mark) : Prop :=
  ∀ rest, BeginsApart rest -> scan [] (text ++ rest) = marks ++ scan [] rest

section Texts

variable {text more : List Char} {marks others : List Mark}

theorem shows_nil : Shows [] [] :=
  fun _ _ => rfl

/-- A word shows itself. -/
theorem shows_word
    {word : String}
    (isWord : IsWord word) :
    Shows word.toList [.word word] := by
  intro rest apart
  have nonempty : word.toList ≠ [] := fun empty => isWord.1 (String.toList_eq_nil_iff.mp empty)
  rw [scan_letters isWord.2, List.nil_append, scan_apart apart, ofLetters,
    if_neg (by simpa using nonempty), String.ofList_toList]

/-- A blank in front shows nothing. -/
theorem Shows.blank (shows : Shows text marks) : Shows (' ' :: text) marks :=
  fun rest apart => shows rest apart

/-- Two texts show their marks in turn, where the second begins apart. -/
theorem Shows.append
    (first : Shows text marks)
    (second : Shows more others)
    (apart : BeginsApart more) :
    Shows (text ++ more) (marks ++ others) := by
  intro rest restApart
  have bothApart : BeginsApart (more ++ rest) := by
    cases more with
    | nil => exact restApart
    | cons c letters => exact apart
  rw [List.append_assoc, first _ bothApart, second rest restApart, List.append_assoc]

/-- A text in parentheses shows its marks between the two. -/
theorem Shows.enclosed (shows : Shows text marks) :
    Shows ('(' :: (text ++ [')'])) (.opening :: (marks ++ [.closing])) := by
  intro rest apart
  have closes : BeginsApart ([')'] ++ rest) := rfl
  rw [List.cons_append, List.append_assoc, scan_opening, shows _ closes]
  simp

/-- A word, and what is printed after it in the same parentheses. -/
theorem shows_node
    (head : String)
    (isWord : IsWord head)
    (shows : Shows text marks)
    (apart : BeginsApart text) :
    Shows ('(' :: (head.toList ++ (text ++ [')'])))
      (.opening :: .word head :: (marks ++ [.closing])) := by
  have inside := (shows_word isWord).append shows apart
  simpa using inside.enclosed

end Texts

end Mark

/-- The shape of a printed tree. -/
inductive Outline where
  | word (text : String)
  | list (parts : List Outline)

namespace Outline

mutual

/-- The marks of an outline. -/
def marks : Outline -> List Mark
  | .word text => [.word text]
  | .list parts => .opening :: (listMarks parts ++ [.closing])

/-- The marks of outlines, one after the other. -/
def listMarks : List Outline -> List Mark
  | [] => []
  | first :: rest => first.marks ++ listMarks rest

end

mutual

/-- The marks of an outline tell where it ends, and which outline it is. -/
theorem marks_append_inj : ∀ (first second : Outline) {rest other : List Mark},
    first.marks ++ rest = second.marks ++ other -> first = second ∧ rest = other
  | .word text, .word otherText, rest, other, same => by
    simpa [marks] using same
  | .word text, .list parts, rest, other, same => by
    simp [marks] at same
  | .list parts, .word text, rest, other, same => by
    simp [marks] at same
  | .list parts, .list otherParts, rest, other, same => by
    simp only [marks, List.cons_append, List.append_assoc, List.cons.injEq, true_and,
      List.nil_append] at same
    obtain ⟨sameParts, sameRest⟩ := listMarks_append_inj parts otherParts same
    exact ⟨congrArg list sameParts, sameRest⟩

/-- The marks of outlines up to a closing mark determine the outlines. -/
theorem listMarks_append_inj : ∀ (first second : List Outline) {rest other : List Mark},
    listMarks first ++ .closing :: rest = listMarks second ++ .closing :: other ->
      first = second ∧ rest = other
  | [], [], rest, other, same => by
    simpa [listMarks] using same
  | [], second :: others, rest, other, same => by
    cases second <;> simp [listMarks, marks] at same
  | first :: others, [], rest, other, same => by
    cases first <;> simp [listMarks, marks] at same
  | first :: others, second :: more, rest, other, same => by
    rw [listMarks, listMarks, List.append_assoc, List.append_assoc] at same
    obtain ⟨sameFirst, sameOthers⟩ := marks_append_inj first second same
    obtain ⟨sameList, sameRest⟩ := listMarks_append_inj others more sameOthers
    exact ⟨by rw [sameFirst, sameList], sameRest⟩

end

/-- The marks of an outline determine it. -/
theorem marks_injective {first second : Outline} (same : first.marks = second.marks) :
    first = second := by
  have followed : first.marks ++ [] = second.marks ++ [] := by rw [same]
  exact (marks_append_inj first second followed).1

/-- A list that begins with a word. -/
def node (head : String) (parts : List Outline) : Outline :=
  .list (.word head :: parts)

end Outline

mutual

/-- The outline of an expression. -/
def Expr.outline : Expr -> Outline
  | .literal value => .word value.render
  | .grouping inner => .node "group" [inner.outline]
  | .unary operator right => .node operator.lexeme [right.outline]
  | .binary left operator right => .node operator.lexeme [left.outline, right.outline]
  | .logical left operator right => .node operator.lexeme [left.outline, right.outline]
  | .read target => .word target.name.lexeme
  | .assign target value => .node "=" [.word target.name.lexeme, value.outline]
  | .call callee _ arguments => .node "call" (callee.outline :: Expr.outlines arguments)
  | .property object name => .node "." [object.outline, .word name.lexeme]
  | .setProperty object name value =>
    .node "=" [.node "." [object.outline, .word name.lexeme], value.outline]
  | .self _ => .word "this"
  | .inherited _ method => .node "super" [.word method.lexeme]

/-- The outlines of expressions. -/
def Expr.outlines : List Expr -> List Outline
  | [] => []
  | first :: rest => first.outline :: Expr.outlines rest

end

/-- The outline of an expression that may be missing. -/
def Expr.optionOutlines : Option Expr -> List Outline
  | none => []
  | some value => [value.outline]

/-- The outlines of the head of a class that may be missing. -/
def Reference.optionOutlines : Option Reference -> List Outline
  | none => []
  | some reference => [.word "<", .word reference.name.lexeme]

mutual

/-- The outline of a statement. -/
def Stmt.outline : Stmt -> Outline
  | .expression value => .node ";" [value.outline]
  | .print value => .node "print" [value.outline]
  | .declare name initializer =>
    .node "var" (.word name.lexeme :: Expr.optionOutlines initializer)
  | .block body => .node "block" (Stmt.outlines body)
  | .conditional condition thenBranch elseBranch =>
    .node "if" (condition.outline :: thenBranch.outline :: Stmt.optionOutlines elseBranch)
  | .loop condition body => .node "while" [condition.outline, body.outline]
  | .function declaration => declaration.outline "fn"
  | .returns _ value => .node "return" (Expr.optionOutlines value)
  | .classDecl name superclass methods =>
    .node "class" (.word name.lexeme ::
      (Reference.optionOutlines superclass ++ FunctionDecl.outlines methods))

/-- The outlines of statements. -/
def Stmt.outlines : List Stmt -> List Outline
  | [] => []
  | first :: rest => first.outline :: Stmt.outlines rest

/-- The outline of a statement that may be missing. -/
def Stmt.optionOutlines : Option Stmt -> List Outline
  | none => []
  | some branch => [branch.outline]

/-- The outline of a function that is introduced by the given word. -/
def FunctionDecl.outline (declaration : FunctionDecl) (word : String) : Outline :=
  match declaration with
  | ⟨name, parameters, body⟩ =>
    .node word (.word name.lexeme ::
      .list (parameters.map fun parameter => .word parameter.lexeme) :: Stmt.outlines body)

/-- The outlines of methods. -/
def FunctionDecl.outlines : List FunctionDecl -> List Outline
  | [] => []
  | first :: rest => first.outline "method" :: FunctionDecl.outlines rest

end

/-- Whether a token in this role is printed as it is spelled. -/
def Role.isPrinted : Role -> Bool
  | sign => true
  | operator => true
  | connective => true
  | name => true
  | _ => false

/-- A leaf is printed as one word, if it is printed at all. -/
def Leaf.Clear : Leaf -> Prop
  | .token role found => role.isPrinted = true -> Mark.IsWord found.lexeme
  | .literal value => Mark.IsWord value.render

section Printing

open Mark Outline

mutual

/-- The printed form of an expression shows its outline. -/
theorem Expr.shows_outline : ∀ expression : Expr,
    (∀ leaf ∈ expression.leaves, leaf.Clear) ->
      Shows expression.render.toList expression.outline.marks
  | .literal value, clear => by
    rw [Expr.leaves, List.forall_mem_singleton] at clear
    rw [Expr.render, Expr.outline, marks]
    exact shows_word clear
  | .grouping inner, clear => by
    rw [Expr.leaves] at clear
    have shows := shows_node "group" (by decide) (inner.shows_outline clear).blank rfl
    simpa [Expr.render, Expr.outline, node, marks, listMarks] using shows
  | .unary operator right, clear => by
    rw [Expr.leaves, List.forall_mem_cons] at clear
    have shows := shows_node operator.lexeme (clear.1 rfl) (right.shows_outline clear.2).blank rfl
    simpa [Expr.render, Expr.outline, node, marks, listMarks] using shows
  | .binary left operator right, clear => by
    rw [Expr.leaves, List.forall_mem_append, List.forall_mem_cons] at clear
    have operands := (left.shows_outline clear.1).blank.append
      (right.shows_outline clear.2.2).blank rfl
    have shows := shows_node operator.lexeme (clear.2.1 rfl) operands rfl
    simpa [Expr.render, Expr.outline, node, marks, listMarks] using shows
  | .logical left operator right, clear => by
    rw [Expr.leaves, List.forall_mem_append, List.forall_mem_cons] at clear
    have operands := (left.shows_outline clear.1).blank.append
      (right.shows_outline clear.2.2).blank rfl
    have shows := shows_node operator.lexeme (clear.2.1 rfl) operands rfl
    simpa [Expr.render, Expr.outline, node, marks, listMarks] using shows
  | .read target, clear => by
    rw [Expr.leaves, List.forall_mem_singleton] at clear
    rw [Expr.render, Expr.outline, marks]
    exact shows_word (clear rfl)
  | .assign target value, clear => by
    rw [Expr.leaves, List.forall_mem_cons] at clear
    have inside := (shows_word (clear.1 rfl)).blank.append (value.shows_outline clear.2).blank rfl
    have shows := shows_node "=" (by decide) inside rfl
    simpa [Expr.render, Expr.outline, node, marks, listMarks] using shows
  | .call callee paren arguments, clear => by
    rw [Expr.leaves, List.forall_mem_append, List.forall_mem_cons] at clear
    obtain ⟨argumentsShow, apart⟩ := Expr.shows_outlines arguments clear.2.2
    have inside := (callee.shows_outline clear.1).blank.append argumentsShow apart
    have shows := shows_node "call" (by decide) inside rfl
    simpa [Expr.render, Expr.outline, node, marks, listMarks] using shows
  | .property object name, clear => by
    rw [Expr.leaves, List.forall_mem_append, List.forall_mem_singleton] at clear
    have inside := (object.shows_outline clear.1).blank.append (shows_word (clear.2 rfl)).blank rfl
    have shows := shows_node "." (by decide) inside rfl
    simpa [Expr.render, Expr.outline, node, marks, listMarks] using shows
  | .setProperty object name value, clear => by
    rw [Expr.leaves, List.forall_mem_append, List.forall_mem_cons] at clear
    have property := (object.shows_outline clear.1).blank.append
      (shows_word (clear.2.1 rfl)).blank rfl
    have target := shows_node "." (by decide) property rfl
    have inside := target.blank.append (value.shows_outline clear.2.2).blank rfl
    have shows := shows_node "=" (by decide) inside rfl
    simpa [Expr.render, Expr.outline, node, marks, listMarks] using shows
  | .self keyword, clear => by
    rw [Expr.render, Expr.outline, marks]
    exact shows_word (by decide)
  | .inherited keyword method, clear => by
    rw [Expr.leaves, List.forall_mem_cons, List.forall_mem_singleton] at clear
    have shows := shows_node "super" (by decide) (shows_word (clear.2 rfl)).blank rfl
    simpa [Expr.render, Expr.outline, node, marks, listMarks] using shows

/-- Rendered expressions show their outlines, each with a blank in front. -/
theorem Expr.shows_outlines : ∀ expressions : List Expr,
    (∀ leaf ∈ Expr.listLeaves expressions, leaf.Clear) ->
      Shows (Expr.renderEach expressions).toList (listMarks (Expr.outlines expressions)) ∧
        BeginsApart (Expr.renderEach expressions).toList
  | [], _ => ⟨shows_nil, rfl⟩
  | first :: rest, clear => by
    rw [Expr.listLeaves, List.forall_mem_append] at clear
    obtain ⟨restShow, apart⟩ := Expr.shows_outlines rest clear.2
    have shows := (first.shows_outline clear.1).blank.append restShow apart
    constructor
    · simpa [Expr.renderEach, Expr.outlines, listMarks] using shows
    · simp [Expr.renderEach, BeginsApart, isPlain]

end

/-- A rendered optional expression shows its outline, with a blank in front. -/
theorem Expr.shows_optionOutlines
    (expression : Option Expr)
    (clear : ∀ leaf ∈ Expr.optionLeaves expression, leaf.Clear) :
    Shows (Expr.renderOptional expression).toList (listMarks (Expr.optionOutlines expression)) ∧
      BeginsApart (Expr.renderOptional expression).toList := by
  cases expression with
  | none => exact ⟨shows_nil, rfl⟩
  | some value =>
    constructor
    · simpa [Expr.renderOptional, Expr.optionOutlines, listMarks] using
        (value.shows_outline clear).blank
    · simp [Expr.renderOptional, BeginsApart, isPlain]

/-- The names of parameters, with blanks between them. -/
theorem shows_parameters
    {parameters : List Token}
    (clear : ∀ leaf ∈ parameters.map (Leaf.token .name), leaf.Clear) :
    Shows (" ".intercalate (parameters.map (·.lexeme))).toList
      (listMarks (parameters.map fun parameter => .word parameter.lexeme)) := by
  rw [String.toList_intercalate]
  induction parameters with
  | nil => exact shows_nil
  | cons first others inductionHypothesis =>
    rw [List.map_cons, List.forall_mem_cons] at clear
    have name := shows_word (clear.1 rfl)
    cases others with
    | nil => simpa [listMarks, marks] using name
    | cons second rest =>
      have shows := name.append (inductionHypothesis clear.2).blank rfl
      simpa [List.intercalate, listMarks, marks] using shows

mutual

/-- The printed form of a statement shows its outline. -/
theorem Stmt.shows_outline : ∀ statement : Stmt,
    (∀ leaf ∈ statement.leaves, leaf.Clear) ->
      Shows statement.render.toList statement.outline.marks
  | .expression value, clear => by
    rw [Stmt.leaves] at clear
    have shows := shows_node ";" (by decide) (value.shows_outline clear).blank rfl
    simpa [Stmt.render, Stmt.outline, node, marks, listMarks] using shows
  | .print value, clear => by
    rw [Stmt.leaves] at clear
    have shows := shows_node "print" (by decide) (value.shows_outline clear).blank rfl
    simpa [Stmt.render, Stmt.outline, node, marks, listMarks] using shows
  | .declare name initializer, clear => by
    rw [Stmt.leaves, List.forall_mem_cons] at clear
    obtain ⟨initializerShows, apart⟩ := Expr.shows_optionOutlines initializer clear.2
    have inside := (shows_word (clear.1 rfl)).blank.append initializerShows apart
    have shows := shows_node "var" (by decide) inside rfl
    simpa [Stmt.render, Stmt.outline, node, marks, listMarks] using shows
  | .block body, clear => by
    rw [Stmt.leaves] at clear
    obtain ⟨bodyShows, apart⟩ := Stmt.shows_outlines body clear
    have shows := shows_node "block" (by decide) bodyShows apart
    simpa [Stmt.render, Stmt.outline, node, marks, listMarks] using shows
  | .conditional condition thenBranch elseBranch, clear => by
    rw [Stmt.leaves, List.forall_mem_append, List.forall_mem_append] at clear
    obtain ⟨elseShows, apart⟩ := Stmt.shows_optionOutlines elseBranch clear.2.2
    have branches := (thenBranch.shows_outline clear.2.1).blank.append elseShows apart
    have inside := (condition.shows_outline clear.1).blank.append branches rfl
    have shows := shows_node "if" (by decide) inside rfl
    simpa [Stmt.render, Stmt.outline, node, marks, listMarks] using shows
  | .loop condition body, clear => by
    rw [Stmt.leaves, List.forall_mem_append] at clear
    have inside := (condition.shows_outline clear.1).blank.append
      (body.shows_outline clear.2).blank rfl
    have shows := shows_node "while" (by decide) inside rfl
    simpa [Stmt.render, Stmt.outline, node, marks, listMarks] using shows
  | .function declaration, clear => by
    rw [Stmt.leaves] at clear
    rw [Stmt.render, Stmt.outline]
    exact declaration.shows_outline "fn" (by decide) clear
  | .returns keyword value, clear => by
    rw [Stmt.leaves, List.forall_mem_cons] at clear
    obtain ⟨valueShows, apart⟩ := Expr.shows_optionOutlines value clear.2
    have shows := shows_node "return" (by decide) valueShows apart
    simpa [Stmt.render, Stmt.outline, node, marks, listMarks] using shows
  | .classDecl name superclass methods, clear => by
    rw [Stmt.leaves, List.forall_mem_cons, List.forall_mem_append] at clear
    obtain ⟨methodsShow, apart⟩ := FunctionDecl.shows_outlines methods clear.2.2
    cases superclass with
    | none =>
      have inside := (shows_word (clear.1 rfl)).blank.append methodsShow apart
      have shows := shows_node "class" (by decide) inside rfl
      simpa [Stmt.render, Stmt.outline, Reference.optionOutlines, node, marks, listMarks]
        using shows
    | some reference =>
      rw [Reference.optionLeaves, List.forall_mem_singleton] at clear
      have less : Shows "<".toList [.word "<"] := shows_word (by decide)
      have ancestor := (shows_word (clear.2.1 rfl)).blank.append methodsShow apart
      have inside := (shows_word (clear.1 rfl)).blank.append (less.blank.append ancestor rfl) rfl
      have shows := shows_node "class" (by decide) inside rfl
      simpa [Stmt.render, Stmt.outline, Reference.optionOutlines, node, marks, listMarks]
        using shows

/-- Rendered statements show their outlines, each with a blank in front. -/
theorem Stmt.shows_outlines : ∀ statements : List Stmt,
    (∀ leaf ∈ Stmt.listLeaves statements, leaf.Clear) ->
      Shows (Stmt.renderEach statements).toList (listMarks (Stmt.outlines statements)) ∧
        BeginsApart (Stmt.renderEach statements).toList
  | [], _ => by
    rw [Stmt.renderEach, Stmt.outlines]
    exact ⟨shows_nil, rfl⟩
  | first :: rest, clear => by
    rw [Stmt.listLeaves, List.forall_mem_append] at clear
    obtain ⟨restShow, apart⟩ := Stmt.shows_outlines rest clear.2
    have shows := (first.shows_outline clear.1).blank.append restShow apart
    constructor
    · simpa [Stmt.renderEach, Stmt.outlines, listMarks] using shows
    · simp [Stmt.renderEach, BeginsApart, isPlain]

/-- A rendered branch shows its outline, with a blank in front. -/
theorem Stmt.shows_optionOutlines : ∀ statement : Option Stmt,
    (∀ leaf ∈ Stmt.optionLeaves statement, leaf.Clear) ->
      Shows (Stmt.renderOptional statement).toList (listMarks (Stmt.optionOutlines statement)) ∧
        BeginsApart (Stmt.renderOptional statement).toList
  | none, _ => by
    rw [Stmt.renderOptional, Stmt.optionOutlines]
    exact ⟨shows_nil, rfl⟩
  | some branch, clear => by
    rw [Stmt.optionLeaves] at clear
    have shows := (branch.shows_outline clear).blank
    constructor
    · simpa [Stmt.renderOptional, Stmt.optionOutlines, listMarks] using shows
    · simp [Stmt.renderOptional, BeginsApart, isPlain]

/-- A rendered function shows its outline under its head. -/
theorem FunctionDecl.shows_outline : ∀ (declaration : FunctionDecl) (head : String),
    IsWord head -> (∀ leaf ∈ declaration.leaves, leaf.Clear) ->
      Shows (declaration.render head).toList (declaration.outline head).marks
  | ⟨name, parameters, body⟩, head, isWord, clear => by
    rw [FunctionDecl.leaves, List.forall_mem_cons, List.forall_mem_append] at clear
    obtain ⟨bodyShows, apart⟩ := Stmt.shows_outlines body clear.2.2
    have signature := (shows_word (clear.1 rfl)).blank.append
      (shows_parameters clear.2.1).enclosed rfl
    have shows := shows_node head isWord (signature.append bodyShows apart) rfl
    simpa [FunctionDecl.render, FunctionDecl.outline, node, marks, listMarks] using shows

/-- Rendered methods show their outlines, each with a blank in front. -/
theorem FunctionDecl.shows_outlines : ∀ methods : List FunctionDecl,
    (∀ leaf ∈ FunctionDecl.listLeaves methods, leaf.Clear) ->
      Shows (Stmt.renderMethods methods).toList (listMarks (FunctionDecl.outlines methods)) ∧
        BeginsApart (Stmt.renderMethods methods).toList
  | [], _ => by
    rw [Stmt.renderMethods, FunctionDecl.outlines]
    exact ⟨shows_nil, rfl⟩
  | first :: rest, clear => by
    rw [FunctionDecl.listLeaves, List.forall_mem_append] at clear
    obtain ⟨restShow, apart⟩ := FunctionDecl.shows_outlines rest clear.2
    have shows := (first.shows_outline "method" (by decide) clear.1).blank.append restShow apart
    constructor
    · simpa [Stmt.renderMethods, FunctionDecl.outlines, listMarks] using shows
    · simp [Stmt.renderMethods, BeginsApart, isPlain]

end

/-- A printed text shows one outline only. -/
theorem outline_eq_of_shows
    {text : List Char}
    {first second : Outline}
    (firstShows : Shows text first.marks)
    (secondShows : Shows text second.marks) :
    first = second := by
  have same := (firstShows [] rfl).symm.trans (secondShows [] rfl)
  exact marks_injective (List.append_cancel_right same)

end Printing

end TreeWalk
