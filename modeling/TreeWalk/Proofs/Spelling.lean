import TreeWalk.Proofs.Grammar.Numbering
import TreeWalk.Proofs.Renumbering
import TreeWalk.Resolution

/-!
# Spelling a program anew

A program is spelled anew by exchanging two names in some of its scopes, by moving
its lines, and by giving other numbers to its references.  The scopes are those of
blocks and functions.  In a chosen
scope the exchange is made in the declarations of variables and parameters, and
in all references that resolve to the scope, wherever they stand.

Names of functions and classes show when values are printed, so a scope in which
a function or class has one of the two names is never chosen.
-/

namespace TreeWalk

/-- Two names, which are to be exchanged. -/
structure NamePair where
  old : String
  new : String

/-- The two names that are exchanged, the distances that tell which scope a
reference means, where each line is moved, and the number that each reference
gets. -/
structure Spelling extends NamePair where
  distances : Distances
  line : Nat -> Nat
  number : Nat -> Nat

/-- A choice of scopes, each given by the way to it through a tree. -/
abbrev Choice := List Bool -> Bool

namespace Choice

/-- The choice that a choice makes in the first part of a tree. -/
def left (choice : Choice) : Choice :=
  fun path => choice (false :: path)

/-- The choice that a choice makes in the other parts of a tree. -/
def right (choice : Choice) : Choice :=
  fun path => choice (true :: path)

/-- No scope is chosen. -/
def nowhere : Choice :=
  fun _ => false

@[simp] theorem left_nowhere : left nowhere = nowhere := rfl

@[simp] theorem right_nowhere : right nowhere = nowhere := rfl

end Choice

namespace NamePair

/-- Exchange the two names.  Where the new one does not occur, this puts it in
place of the old one. -/
def exchange (pair : NamePair) (name : String) : String :=
  if name = pair.old then pair.new
  else if name = pair.new then pair.old
  else name

/-- The new spelling of a name that belongs to a scope, which is chosen or
not. -/
def name (pair : NamePair) (chosen : Bool) (name : String) : String :=
  if chosen then pair.exchange name else name

/-- Exchanged twice, a name is itself. -/
theorem exchange_exchange (pair : NamePair) (name : String) :
    pair.exchange (pair.exchange name) = name := by
  unfold exchange
  split
  · rename_i isOld
    split
    · rename_i same
      rw [same, isOld]
    · rw [if_pos rfl, isOld]
  · rename_i notOld
    split
    · rename_i isNew
      rw [if_pos rfl, isNew]
    · rfl

/-- A name that is none of the two is not exchanged. -/
theorem exchange_of_ne
    {pair : NamePair}
    {name : String}
    (notOld : name ≠ pair.old)
    (notNew : name ≠ pair.new) :
    pair.exchange name = name := by
  rw [exchange, if_neg notOld, if_neg notNew]

/-- A name is never changed by exchanging it with itself. -/
theorem exchange_of_same
    {pair : NamePair}
    (same : pair.new = pair.old)
    (name : String) :
    pair.exchange name = name := by
  rw [exchange, same]
  split
  · rename_i isOld
    exact isOld.symm
  · rfl

/-- Without a pair of names to exchange, both are left empty. -/
theorem exchange_nothing (name : String) : exchange ⟨"", ""⟩ name = name :=
  exchange_of_same rfl name

@[simp] theorem name_false (pair : NamePair) (name : String) : pair.name false name = name :=
  rfl

/-- Respelled twice in the same scope, a name is itself. -/
theorem name_name (pair : NamePair) (chosen : Bool) (name : String) :
    pair.name chosen (pair.name chosen name) = name := by
  cases chosen with
  | false => rfl
  | true => exact exchange_exchange pair name

/-- In a scope, only the same name is respelled alike. -/
theorem name_injective (pair : NamePair) (chosen : Bool) :
    ∀ name other, pair.name chosen name = pair.name chosen other -> name = other := by
  intro name other same
  rw [← name_name pair chosen name, same, name_name]

/-- A name that is not exchanged is the same in every scope. -/
theorem name_of_exchange_eq
    {pair : NamePair}
    {name : String}
    (keeps : pair.exchange name = name)
    (chosen : Bool) :
    pair.name chosen name = name := by
  cases chosen with
  | false => rfl
  | true => exact keeps

end NamePair

/-- Whether the scope that a reference means is a chosen one, among the scopes
around the reference. -/
def Spelling.reaches (spelling : Spelling) (chosen : List Bool) (id : Nat) : Bool :=
  match spelling.distances[id]? with
  | none => false
  | some distance => chosen.getD distance false

/-- Spell a token anew. -/
def Token.respell (spelling : Spelling) (chosen : Bool) (token : Token) : Token :=
  ⟨token.kind, spelling.name chosen token.lexeme, spelling.line token.line⟩

@[simp] theorem Token.kind_respell (spelling : Spelling) (chosen : Bool) (token : Token) :
    (token.respell spelling chosen).kind = token.kind :=
  rfl

/-- Move a reference without changing its name. -/
def Reference.move (spelling : Spelling) (reference : Reference) : Reference :=
  ⟨spelling.number reference.id, reference.name.respell spelling false⟩

/-- Spell a reference anew, as the scope that it means is. -/
def Reference.respell
    (spelling : Spelling)
    (chosen : List Bool)
    (reference : Reference) : Reference :=
  ⟨spelling.number reference.id,
    reference.name.respell spelling (spelling.reaches chosen reference.id)⟩

mutual

/-- Spell an expression anew. -/
def Expr.respell (spelling : Spelling) (chosen : List Bool) : Expr -> Expr
  | .literal value => .literal value
  | .grouping inner => .grouping (inner.respell spelling chosen)
  | .unary operator right =>
    .unary (operator.respell spelling false) (right.respell spelling chosen)
  | .binary left operator right =>
    .binary (left.respell spelling chosen) (operator.respell spelling false)
      (right.respell spelling chosen)
  | .logical left operator right =>
    .logical (left.respell spelling chosen) (operator.respell spelling false)
      (right.respell spelling chosen)
  | .read target => .read (target.respell spelling chosen)
  | .assign target value =>
    .assign (target.respell spelling chosen) (value.respell spelling chosen)
  | .call callee paren arguments =>
    .call (callee.respell spelling chosen) (paren.respell spelling false)
      (Expr.listRespell spelling chosen arguments)
  | .property object name =>
    .property (object.respell spelling chosen) (name.respell spelling false)
  | .setProperty object name value =>
    .setProperty (object.respell spelling chosen) (name.respell spelling false)
      (value.respell spelling chosen)
  | .self keyword => .self (keyword.move spelling)
  | .inherited keyword method =>
    .inherited (keyword.move spelling) (method.respell spelling false)

/-- Spell expressions anew. -/
def Expr.listRespell (spelling : Spelling) (chosen : List Bool) : List Expr -> List Expr
  | [] => []
  | first :: rest => first.respell spelling chosen :: Expr.listRespell spelling chosen rest

end

/-- Spell an expression that may be missing anew. -/
def Expr.optionRespell
    (spelling : Spelling)
    (chosen : List Bool) : Option Expr -> Option Expr
  | none => none
  | some value => some (value.respell spelling chosen)

mutual

/-- Whether the functions and classes that a statement declares in its scope keep
their names when the two names are exchanged. -/
def Stmt.keepsNames (spelling : Spelling) : Stmt -> Bool
  | .conditional _ thenBranch elseBranch =>
    thenBranch.keepsNames spelling && Stmt.optionKeepsNames spelling elseBranch
  | .loop _ body => body.keepsNames spelling
  | .function declaration =>
    spelling.exchange declaration.name.lexeme == declaration.name.lexeme
  | .classDecl name _ _ => spelling.exchange name.lexeme == name.lexeme
  | _ => true

/-- Whether a statement that may be missing keeps the names of functions and
classes. -/
def Stmt.optionKeepsNames (spelling : Spelling) : Option Stmt -> Bool
  | none => true
  | some branch => branch.keepsNames spelling

end

/-- Whether the scope of some statements is chosen. -/
def Spelling.chooses (spelling : Spelling) (choice : Choice) (body : List Stmt) : Bool :=
  choice [] && body.all (·.keepsNames spelling)

/-- The scopes around the methods of a class: those around the class, the one of
the superclass, if there is any, and the one of the receiver. -/
def aroundMethods (superclass : Option Reference) (chosen : List Bool) : List Bool :=
  match superclass with
  | none => false :: chosen
  | some _ => false :: false :: chosen

mutual

/-- Spell a statement anew. -/
def Stmt.respell (spelling : Spelling) (choice : Choice) (chosen : List Bool) : Stmt -> Stmt
  | .expression value => .expression (value.respell spelling chosen)
  | .print value => .print (value.respell spelling chosen)
  | .declare name initializer =>
    .declare (name.respell spelling (chosen.headD false))
      (Expr.optionRespell spelling chosen initializer)
  | .block body =>
    .block (Stmt.listRespell spelling choice (spelling.chooses choice body :: chosen) body)
  | .conditional condition thenBranch elseBranch =>
    .conditional (condition.respell spelling chosen)
      (thenBranch.respell spelling choice.left chosen)
      (Stmt.optionRespell spelling choice.right chosen elseBranch)
  | .loop condition body =>
    .loop (condition.respell spelling chosen) (body.respell spelling choice chosen)
  | .function declaration => .function (declaration.respell spelling choice chosen)
  | .returns keyword value =>
    .returns (keyword.respell spelling false) (Expr.optionRespell spelling chosen value)
  | .classDecl name superclass methods =>
    .classDecl (name.respell spelling false) (superclass.map (·.respell spelling chosen))
      (FunctionDecl.listRespell spelling choice (aroundMethods superclass chosen) methods)

/-- Spell statements anew. -/
def Stmt.listRespell
    (spelling : Spelling)
    (choice : Choice)
    (chosen : List Bool) : List Stmt -> List Stmt
  | [] => []
  | first :: rest =>
    first.respell spelling choice.left chosen ::
      Stmt.listRespell spelling choice.right chosen rest

/-- Spell a statement that may be missing anew. -/
def Stmt.optionRespell
    (spelling : Spelling)
    (choice : Choice)
    (chosen : List Bool) : Option Stmt -> Option Stmt
  | none => none
  | some branch => some (branch.respell spelling choice chosen)

/-- Spell a function anew. -/
def FunctionDecl.respell
    (spelling : Spelling)
    (choice : Choice)
    (chosen : List Bool) : FunctionDecl -> FunctionDecl
  | ⟨name, parameters, body⟩ =>
    ⟨name.respell spelling false,
      parameters.map (·.respell spelling (spelling.chooses choice body)),
      Stmt.listRespell spelling choice (spelling.chooses choice body :: chosen) body⟩

/-- Spell functions anew. -/
def FunctionDecl.listRespell
    (spelling : Spelling)
    (choice : Choice)
    (chosen : List Bool) : List FunctionDecl -> List FunctionDecl
  | [] => []
  | first :: rest =>
    first.respell spelling choice.left chosen ::
      FunctionDecl.listRespell spelling choice.right chosen rest

end

attribute [simp] Expr.respell Expr.listRespell Stmt.keepsNames Stmt.optionKeepsNames Stmt.respell
  Stmt.listRespell Stmt.optionRespell FunctionDecl.respell FunctionDecl.listRespell

/-- The names of functions and classes are kept in a scope that is chosen. -/
theorem Spelling.keepsNames_of_chooses
    {spelling : Spelling}
    {choice : Choice}
    {body : List Stmt}
    (chooses : spelling.chooses choice body = true) :
    body.all (·.keepsNames spelling) = true := by
  rw [Spelling.chooses, Bool.and_eq_true] at chooses
  exact chooses.2

@[simp] theorem FunctionDecl.name_respell
    (declaration : FunctionDecl)
    (spelling : Spelling)
    (choice : Choice)
    (chosen : List Bool) :
    (declaration.respell spelling choice chosen).name =
      declaration.name.respell spelling false := by
  cases declaration
  simp

/-! ## Spellings that change nothing but numbers -/

section Unchanged

variable {spelling : Spelling} {choice : Choice} {chosen : List Bool}

/-- No name is changed: there is nothing to exchange, or no scope is chosen. -/
def Spelling.Plain (spelling : Spelling) (choice : Choice) (chosen : List Bool) : Prop :=
  (∀ name, spelling.exchange name = name) ∨
    (choice = .nowhere ∧ ∀ scope ∈ chosen, scope = false)

/-- A plain spelling changes no name in the innermost scope. -/
theorem Spelling.Plain.name_headD
    (plain : spelling.Plain choice chosen)
    (name : String) :
    spelling.name (chosen.headD false) name = name := by
  rcases plain with idle | ⟨-, unchosen⟩
  · exact NamePair.name_of_exchange_eq (idle name) _
  · cases chosen with
    | nil => rfl
    | cons first rest =>
      rw [List.headD_cons, unchosen first List.mem_cons_self]
      rfl

/-- A plain spelling changes no name in the scope a reference leads to. -/
theorem Spelling.Plain.name_reaches
    (plain : spelling.Plain choice chosen)
    (id : Nat)
    (name : String) :
    spelling.name (spelling.reaches chosen id) name = name := by
  rcases plain with idle | ⟨-, unchosen⟩
  · exact NamePair.name_of_exchange_eq (idle name) _
  · have unreached : spelling.reaches chosen id = false := by
      unfold reaches
      split
      · rfl
      · rename_i distance _
        rw [List.getD_eq_getElem?_getD]
        cases found : chosen[distance]? with
        | none => rfl
        | some scope => exact unchosen scope (List.mem_of_getElem? found)
    rw [unreached]
    rfl

/-- A plain choice is plain for the first part. -/
theorem Spelling.Plain.left (plain : spelling.Plain choice chosen) :
    spelling.Plain choice.left chosen := by
  rcases plain with idle | ⟨rfl, unchosen⟩
  · exact .inl idle
  · exact .inr ⟨Choice.left_nowhere, unchosen⟩

/-- A plain choice is plain for the second part. -/
theorem Spelling.Plain.right (plain : spelling.Plain choice chosen) :
    spelling.Plain choice.right chosen := by
  rcases plain with idle | ⟨rfl, unchosen⟩
  · exact .inl idle
  · exact .inr ⟨Choice.right_nowhere, unchosen⟩

/-- A scope that is not chosen leaves a spelling plain. -/
theorem Spelling.Plain.unmarked (plain : spelling.Plain choice chosen) :
    spelling.Plain choice (false :: chosen) := by
  rcases plain with idle | ⟨rfl, unchosen⟩
  · exact .inl idle
  · exact .inr ⟨rfl, List.forall_mem_cons.mpr ⟨rfl, unchosen⟩⟩

/-- A function's scope leaves a plain spelling plain. -/
theorem Spelling.Plain.chooses
    (plain : spelling.Plain choice chosen)
    (body : List Stmt) :
    spelling.Plain choice (spelling.chooses choice body :: chosen) := by
  rcases plain with idle | ⟨rfl, unchosen⟩
  · exact .inl idle
  · exact .inr ⟨rfl, List.forall_mem_cons.mpr ⟨rfl, unchosen⟩⟩

/-- The scopes around methods leave a plain spelling plain. -/
theorem Spelling.Plain.aroundMethods
    (plain : spelling.Plain choice chosen)
    (superclass : Option Reference) :
    spelling.Plain choice (aroundMethods superclass chosen) := by
  cases superclass with
  | none => exact plain.unmarked
  | some reference => exact plain.unmarked.unmarked

variable
  (still : ∀ line, spelling.line line = line)
  (plain : spelling.Plain choice chosen)

include still in
theorem Token.respell_of_name
    {token : Token}
    {mark : Bool}
    (same : spelling.name mark token.lexeme = token.lexeme) :
    token.respell spelling mark = token := by
  rw [Token.respell, still, same]

include still in
theorem Token.respell_of_still (token : Token) : token.respell spelling false = token :=
  Token.respell_of_name still rfl

include still in
/-- Where no line moves, a moved reference is renumbered only. -/
theorem Reference.move_of_still (reference : Reference) :
    reference.move spelling = reference.renumber spelling.number := by
  rw [Reference.move, Token.respell_of_still still, Reference.renumber]

include still plain in
/-- Under a plain spelling a reference is renumbered only. -/
theorem Reference.respell_of_plain (reference : Reference) :
    reference.respell spelling chosen = reference.renumber spelling.number := by
  rw [Reference.respell, Token.respell_of_name still (plain.name_reaches _ _), Reference.renumber]

mutual

/-- Under a plain spelling an expression is renumbered only. -/
theorem Expr.respell_of_plain
    (still : ∀ line, spelling.line line = line)
    (plain : spelling.Plain choice chosen) :
    ∀ value : Expr, value.respell spelling chosen = value.renumber spelling.number
  | .literal value => by
    rw [Expr.respell, Expr.renumber]
  | .grouping inner => by
    rw [Expr.respell, Expr.renumber, Expr.respell_of_plain still plain inner]
  | .unary operator right => by
    rw [Expr.respell, Expr.renumber, Expr.respell_of_plain still plain right,
      Token.respell_of_still still]
  | .binary left operator right => by
    rw [Expr.respell, Expr.renumber, Expr.respell_of_plain still plain left,
      Expr.respell_of_plain still plain right, Token.respell_of_still still]
  | .logical left operator right => by
    rw [Expr.respell, Expr.renumber, Expr.respell_of_plain still plain left,
      Expr.respell_of_plain still plain right, Token.respell_of_still still]
  | .read target => by
    rw [Expr.respell, Expr.renumber, Reference.respell_of_plain still plain]
  | .assign target value => by
    rw [Expr.respell, Expr.renumber, Reference.respell_of_plain still plain,
      Expr.respell_of_plain still plain value]
  | .call callee paren arguments => by
    rw [Expr.respell, Expr.renumber, Expr.respell_of_plain still plain callee,
      Expr.listRespell_of_plain still plain arguments, Token.respell_of_still still]
  | .property object name => by
    rw [Expr.respell, Expr.renumber, Expr.respell_of_plain still plain object,
      Token.respell_of_still still]
  | .setProperty object name value => by
    rw [Expr.respell, Expr.renumber, Expr.respell_of_plain still plain object,
      Expr.respell_of_plain still plain value, Token.respell_of_still still]
  | .self keyword => by
    rw [Expr.respell, Expr.renumber, Reference.move_of_still still]
  | .inherited keyword method => by
    rw [Expr.respell, Expr.renumber, Reference.move_of_still still, Token.respell_of_still still]

/-- Under a plain spelling expressions are renumbered only. -/
theorem Expr.listRespell_of_plain
    (still : ∀ line, spelling.line line = line)
    (plain : spelling.Plain choice chosen) :
    ∀ values : List Expr,
      Expr.listRespell spelling chosen values = Expr.listRenumber spelling.number values
  | [] => by
    rw [Expr.listRespell, Expr.listRenumber]
  | first :: rest => by
    rw [Expr.listRespell, Expr.listRenumber, Expr.respell_of_plain still plain first,
      Expr.listRespell_of_plain still plain rest]

end

include still plain in
/-- Under a plain spelling an optional expression is renumbered only. -/
theorem Expr.optionRespell_of_plain (value : Option Expr) :
    Expr.optionRespell spelling chosen value = Expr.optionRenumber spelling.number value := by
  cases value with
  | none => rfl
  | some value => rw [Expr.optionRespell, Expr.optionRenumber, Expr.respell_of_plain still plain]

mutual

/-- Under a plain spelling a statement is renumbered only. -/
theorem Stmt.respell_of_plain
    (still : ∀ line, spelling.line line = line)
    {choice : Choice}
    {chosen : List Bool}
    (plain : spelling.Plain choice chosen) :
    ∀ step : Stmt, step.respell spelling choice chosen = step.renumber spelling.number
  | .expression value => by
    rw [Stmt.respell, Stmt.renumber, Expr.respell_of_plain still plain]
  | .print value => by
    rw [Stmt.respell, Stmt.renumber, Expr.respell_of_plain still plain]
  | .declare name initializer => by
    rw [Stmt.respell, Stmt.renumber, Token.respell_of_name still (plain.name_headD _),
      Expr.optionRespell_of_plain still plain]
  | .block body => by
    rw [Stmt.respell, Stmt.renumber, Stmt.listRespell_of_plain still (plain.chooses body) body]
  | .conditional condition thenBranch elseBranch => by
    rw [Stmt.respell, Stmt.renumber, Expr.respell_of_plain still plain,
      Stmt.respell_of_plain still plain.left thenBranch,
      Stmt.optionRespell_of_plain still plain.right elseBranch]
  | .loop condition body => by
    rw [Stmt.respell, Stmt.renumber, Expr.respell_of_plain still plain,
      Stmt.respell_of_plain still plain body]
  | .function declaration => by
    rw [Stmt.respell, Stmt.renumber, FunctionDecl.respell_of_plain still plain declaration]
  | .returns keyword value => by
    rw [Stmt.respell, Stmt.renumber, Token.respell_of_still still,
      Expr.optionRespell_of_plain still plain]
  | .classDecl name superclass methods => by
    have sameSuperclass : superclass.map (·.respell spelling chosen) =
        superclass.map (·.renumber spelling.number) := by
      cases superclass with
      | none => rfl
      | some reference =>
        rw [Option.map_some, Option.map_some, Reference.respell_of_plain still plain]
    rw [Stmt.respell, Stmt.renumber, Token.respell_of_still still, sameSuperclass,
      FunctionDecl.listRespell_of_plain still (plain.aroundMethods superclass) methods]

/-- Under a plain spelling statements are renumbered only. -/
theorem Stmt.listRespell_of_plain
    (still : ∀ line, spelling.line line = line)
    {choice : Choice}
    {chosen : List Bool}
    (plain : spelling.Plain choice chosen) :
    ∀ steps : List Stmt,
      Stmt.listRespell spelling choice chosen steps = Stmt.listRenumber spelling.number steps
  | [] => by
    rw [Stmt.listRespell, Stmt.listRenumber]
  | first :: rest => by
    rw [Stmt.listRespell, Stmt.listRenumber, Stmt.respell_of_plain still plain.left first,
      Stmt.listRespell_of_plain still plain.right rest]

/-- Under a plain spelling a branch is renumbered only. -/
theorem Stmt.optionRespell_of_plain
    (still : ∀ line, spelling.line line = line)
    {choice : Choice}
    {chosen : List Bool}
    (plain : spelling.Plain choice chosen) :
    ∀ branch : Option Stmt,
      Stmt.optionRespell spelling choice chosen branch =
        Stmt.optionRenumber spelling.number branch
  | none => by
    rw [Stmt.optionRespell, Stmt.optionRenumber]
  | some branch => by
    rw [Stmt.optionRespell, Stmt.optionRenumber, Stmt.respell_of_plain still plain branch]

/-- Under a plain spelling a function is renumbered only. -/
theorem FunctionDecl.respell_of_plain
    (still : ∀ line, spelling.line line = line)
    {choice : Choice}
    {chosen : List Bool}
    (plain : spelling.Plain choice chosen) :
    ∀ declaration : FunctionDecl,
      declaration.respell spelling choice chosen = declaration.renumber spelling.number
  | ⟨name, parameters, body⟩ => by
    have sameParameters :
        parameters.map (·.respell spelling (spelling.chooses choice body)) = parameters := by
      rw [List.map_congr_left fun parameter _ => Token.respell_of_name still
        ((plain.chooses body).name_headD parameter.lexeme), List.map_id']
    rw [FunctionDecl.respell, FunctionDecl.renumber, Token.respell_of_still still,
      sameParameters, Stmt.listRespell_of_plain still (plain.chooses body) body]

/-- Under a plain spelling functions are renumbered only. -/
theorem FunctionDecl.listRespell_of_plain
    (still : ∀ line, spelling.line line = line)
    {choice : Choice}
    {chosen : List Bool}
    (plain : spelling.Plain choice chosen) :
    ∀ declarations : List FunctionDecl,
      FunctionDecl.listRespell spelling choice chosen declarations =
        FunctionDecl.listRenumber spelling.number declarations
  | [] => by
    rw [FunctionDecl.listRespell, FunctionDecl.listRenumber]
  | first :: rest => by
    rw [FunctionDecl.listRespell, FunctionDecl.listRenumber,
      FunctionDecl.respell_of_plain still plain.left first,
      FunctionDecl.listRespell_of_plain still plain.right rest]

end

end Unchanged

end TreeWalk
