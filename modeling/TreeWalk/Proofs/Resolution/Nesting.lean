import TreeWalk.Proofs.Resolution.Standing

/-!
# What lies around a place

A place in a program lies inside of blocks, functions, methods and classes, nested
in the text of the program.  Name resolution keeps track of them by its scopes:
the receiver is bound in a scope around each method, and the superclass in one
scope further out.  So the distance of `this` is the number of blocks and functions
between its place and the innermost method around it, and that of `super` is one
more.
-/

namespace TreeWalk

/-- A class declaration. -/
structure ClassDecl where
  name : Token
  superclass : Option Reference
  methods : List FunctionDecl

namespace ClassDecl

/-- The statement that declares the class. -/
def statement (owner : ClassDecl) : Stmt :=
  .classDecl owner.name owner.superclass owner.methods

/-- The kind of the class. -/
def kind (owner : ClassDecl) : ClassKind :=
  match owner.superclass with
  | none => .plain
  | some _ => .subclass

end ClassDecl

/-- What a scope is there for. -/
inductive Frame where
  | plain
  | receiver (owner : ClassDecl) (method : FunctionDecl)
  | superclass (owner : ClassDecl) (reference : Reference)

/-- The scope of a class in which its superclass is bound, if it has one. -/
def ClassDecl.frames (owner : ClassDecl) : List Frame :=
  match owner.superclass with
  | none => []
  | some reference => [.superclass owner reference]

/-- What lies around a place in a program, from the innermost outwards.  Between the
methods of a class, the place lies in the body of the class. -/
inductive Nest where
  | program
  | block (outer : Nest)
  | call (declaration : FunctionDecl) (outer : Nest)
  | body (owner : ClassDecl) (outer : Nest)
  | method (owner : ClassDecl) (method : FunctionDecl) (outer : Nest)

namespace Nest

/-- What the scopes around a place are there for.  The receiver of a method is bound
for each method anew. -/
def frames : Nest -> List Frame
  | program => []
  | block outer => .plain :: outer.frames
  | call _ outer => .plain :: outer.frames
  | body owner outer => owner.frames ++ outer.frames
  | method owner declaration outer => .receiver owner declaration :: (owner.frames ++ outer.frames)

/-- The kind of the innermost class around a place. -/
def classKind : Nest -> ClassKind
  | program => .none
  | block outer => outer.classKind
  | call _ outer => outer.classKind
  | body owner _ => owner.kind
  | method owner _ _ => owner.kind

/-- A place lies in a method, with some number of scopes opened since. -/
inductive InMethod (owner : ClassDecl) (declaration : FunctionDecl) : Nat -> Nest -> Prop
  | here {outer : Nest} : InMethod owner declaration 0 (.method owner declaration outer)
  | block
      {depth : Nat}
      {outer : Nest}
      (inside : InMethod owner declaration depth outer) :
      InMethod owner declaration (depth + 1) (.block outer)
  | call
      {depth : Nat}
      {outer : Nest}
      {function : FunctionDecl}
      (inside : InMethod owner declaration depth outer) :
      InMethod owner declaration (depth + 1) (.call function outer)

/-- The place lies in no class body, apart from those around methods that it lies
in. -/
def IsInner : Nest -> Prop
  | program => True
  | block outer => outer.IsInner
  | call _ outer => outer.IsInner
  | body _ _ => False
  | method _ _ _ => True

/-- The nest of a part that the walk goes to from another part. -/
def enter (nest : Nest) : Part -> Part -> Nest
  | .statement (.block _), _ => .block nest
  | .statement (.classDecl name superclass methods), .methods _ =>
    .body ⟨name, superclass, methods⟩ nest
  | .function declaration, _ => .call declaration nest
  | .methods _, .function declaration =>
    match nest with
    | .body owner outer => .method owner declaration outer
    | other => other
  | _, _ => nest

variable {owner : ClassDecl} {declaration : FunctionDecl} {depth : Nat} {nest : Nest}

/-- At the depth of a method stands the frame of its receiver. -/
theorem InMethod.getElem?_frames (inside : InMethod owner declaration depth nest) :
    nest.frames[depth]? = some (.receiver owner declaration) := by
  induction inside with
  | here => rfl
  | block _ inductionHypothesis => exact inductionHypothesis
  | call _ inductionHypothesis => exact inductionHypothesis

/-- The superclass is bound just outside of the receiver. -/
theorem InMethod.getElem?_frames_superclass
    {reference : Reference}
    (inside : InMethod owner declaration depth nest)
    (inherits : owner.superclass = some reference) :
    nest.frames[depth + 1]? = some (.superclass owner reference) := by
  induction inside with
  | here => simp [frames, ClassDecl.frames, inherits]
  | block _ inductionHypothesis => exact inductionHypothesis
  | call _ inductionHypothesis => exact inductionHypothesis

/-- Inside of a class, there is an innermost method. -/
theorem exists_inMethod
    (isInner : nest.IsInner)
    (inClass : nest.classKind ≠ .none) :
    ∃ owner declaration depth, InMethod owner declaration depth nest ∧
      owner.kind = nest.classKind := by
  induction nest with
  | program => exact absurd rfl inClass
  | block outer inductionHypothesis =>
    obtain ⟨owner, declaration, depth, inside, kind⟩ := inductionHypothesis isInner inClass
    exact ⟨owner, declaration, depth + 1, .block inside, kind⟩
  | call function outer inductionHypothesis =>
    obtain ⟨owner, declaration, depth, inside, kind⟩ := inductionHypothesis isInner inClass
    exact ⟨owner, declaration, depth + 1, .call inside, kind⟩
  | body owner outer => exact isInner.elim
  | method owner declaration outer => exact ⟨owner, declaration, 0, .here, rfl⟩

end Nest

namespace Resolution

/-- Whether a scope binds the receiver, and whether it binds the superclass. -/
def marks (scope : Bindings Binding) : Bool × Bool :=
  (scope.contains selfName, scope.contains superclassName)

/-- Binding a name that is no keyword leaves a scope's marks. -/
theorem marks_set
    {name : String}
    (ordinary : Keyword.ofText? name = none)
    (scope : Bindings Binding)
    (binding : Binding) :
    marks (scope.set name binding) = marks scope := by
  have notSelf : selfName ≠ name := by
    rintro rfl
    exact absurd ordinary (by decide)
  have notSuperclass : superclassName ≠ name := by
    rintro rfl
    exact absurd ordinary (by decide)
  simp [marks, Bindings.contains_set, notSelf, notSuperclass]

/-- Binding a name that is no keyword leaves the marks of the scopes. -/
theorem marks_bindName
    {name : String}
    (ordinary : Keyword.ofText? name = none)
    (scopes : List (Bindings Binding)) :
    (bindName name scopes).map marks = scopes.map marks := by
  cases scopes with
  | nil => rfl
  | cons scope outer => simp [bindName, marks_set ordinary]

/-- Declaring a name that is no keyword leaves the marks of the scopes. -/
theorem marks_declareName
    {name : String}
    (ordinary : Keyword.ofText? name = none)
    (scopes : List (Bindings Binding)) :
    (declareName name scopes).map marks = scopes.map marks := by
  cases scopes with
  | nil => rfl
  | cons scope outer =>
    rw [declareName]
    split
    · rfl
    · simp [marks_set ordinary]

/-- The name a well-formed statement declares leaves the marks of the scopes. -/
theorem marks_bindDeclared
    {step : Stmt}
    (wellFormed : step.WellFormed Token.IsName)
    (scopes : List (Bindings Binding)) :
    (bindDeclared step.declaredName? scopes).map marks = scopes.map marks := by
  cases step with
  | declare name initializer =>
    rw [Stmt.WellFormed] at wellFormed
    exact marks_bindName wellFormed.1 scopes
  | function declaration =>
    obtain ⟨name, parameters, body⟩ := declaration
    rw [Stmt.WellFormed, FunctionDecl.WellFormed] at wellFormed
    exact marks_bindName wellFormed.1 scopes
  | classDecl name superclass functions =>
    rw [Stmt.WellFormed] at wellFormed
    exact marks_bindName wellFormed.1 scopes
  | _ => rfl

/-- Parameters leave their scope unmarked. -/
theorem marks_parameterScope
    {parameters : List Token}
    (names : ∀ parameter ∈ parameters, parameter.IsName) :
    marks (parameterScope parameters) = (false, false) :=
  List.foldlRecOn (motive := fun scope => marks scope = (false, false)) parameters _ rfl
    fun scope same parameter member =>
      (marks_set (names parameter member) scope .defined).trans same

end Resolution

namespace Nest

/-- Which of the scopes around a place bind the receiver, and which the
superclass. -/
def marks : Nest -> List (Bool × Bool)
  | program => []
  | block outer => (false, false) :: outer.marks
  | call _ outer => (false, false) :: outer.marks
  | body owner outer =>
    (true, false) ::
      match owner.superclass with
      | none => outer.marks
      | some _ => (false, true) :: outer.marks
  | method owner _ outer =>
    (true, false) ::
      match owner.superclass with
      | none => outer.marks
      | some _ => (false, true) :: outer.marks

variable {owner : ClassDecl} {declaration : FunctionDecl} {depth : Nat} {nest : Nest}

/-- The first scope that binds the receiver is that of the innermost method. -/
theorem InMethod.findIdx?_self (inside : InMethod owner declaration depth nest) :
    nest.marks.findIdx? (·.1) = some depth := by
  induction inside with
  | here => rfl
  | block _ inductionHypothesis => simp [marks, List.findIdx?_cons, inductionHypothesis]
  | call _ inductionHypothesis => simp [marks, List.findIdx?_cons, inductionHypothesis]

/-- If the innermost class has a superclass, the first scope that binds one is just
outside of that scope. -/
theorem InMethod.findIdx?_superclass
    {reference : Reference}
    (inside : InMethod owner declaration depth nest)
    (inherits : owner.superclass = some reference) :
    nest.marks.findIdx? (·.2) = some (depth + 1) := by
  induction inside with
  | here => simp [marks, inherits, List.findIdx?_cons]
  | block _ inductionHypothesis => simp [marks, List.findIdx?_cons, inductionHypothesis]
  | call _ inductionHypothesis => simp [marks, List.findIdx?_cons, inductionHypothesis]

end Nest

namespace Site

open Resolution

/-- The walk over a program gets to a site, and these are the blocks, functions,
methods and classes that it is in there. -/
inductive Under (root : Site) : Site -> Nest -> Prop
  | start : Under root root .program
  | step
      {site child : Site}
      {nest : Nest}
      (under : Under root site nest)
      (isChild : child ∈ site.children) :
      Under root child (nest.enter site.part child.part)

variable {root site : Site} {nest : Nest}

/-- A site under a nest of frames is within the root. -/
theorem Under.within (under : Under root site nest) : Within root site := by
  induction under with
  | start => exact .refl
  | step _ isChild inductionHypothesis => exact inductionHypothesis.step isChild

/-- The walk over a function is inside of what the function is declared in. -/
theorem Under.function
    {around : Surroundings}
    {walk : Resolution}
    {declaration : FunctionDecl}
    (under : Under root ⟨around, .statement (.function declaration), walk⟩ nest) :
    ∃ inner, Under root inner nest ∧ inner.part = .function declaration :=
  ⟨_, under.step List.mem_cons_self, rfl⟩

/-- The walk over a class gets to each of its methods. -/
theorem Under.method
    {around : Surroundings}
    {walk : Resolution}
    {owner : ClassDecl}
    {declaration : FunctionDecl}
    (under : Under root ⟨around, .statement owner.statement, walk⟩ nest)
    (member : declaration ∈ owner.methods) :
    ∃ inner, Under root inner (.method owner declaration nest) ∧
      inner.part = .function declaration := by
  have inBody : ∀ (declarations : List FunctionDecl) (around : Surroundings) (walk : Resolution),
      Under root ⟨around, .methods declarations, walk⟩ (.body owner nest) ->
      declaration ∈ declarations -> ∃ inner, Under root inner (.method owner declaration nest) ∧
        inner.part = .function declaration := by
    intro declarations
    induction declarations with
    | nil => exact fun _ _ _ isMember => absurd isMember List.not_mem_nil
    | cons first rest inductionHypothesis =>
      intro around walk reached isMember
      rcases List.mem_cons.mp isMember with rfl | inRest
      · exact ⟨_, reached.step List.mem_cons_self, rfl⟩
      · exact inductionHypothesis _ _
          (reached.step (List.mem_cons_of_mem _ List.mem_cons_self)) inRest
  obtain ⟨name, superclass, methods⟩ := owner
  cases superclass with
  | none => exact inBody _ _ _ (under.step List.mem_cons_self) member
  | some reference =>
    exact inBody _ _ _ (under.step (List.mem_cons_of_mem _ List.mem_cons_self)) member

/-- The walk at a site has a nest around it: its scopes bind the receiver and the
superclass where the nest has them bound, and it is in the innermost class of the
nest.  The superclass of a class is walked over as if it were inside of the
class. -/
structure LiesIn (site : Site) (nest : Nest) : Prop where
  marks : site.walk.scopes.map marks = nest.marks
  kind : (∀ reference, site.part ≠ .superclass reference) ->
    site.around.classKind = nest.classKind
  shape :
    match site.part with
    | .methods _ => ∃ owner outer, nest = .body owner outer
    | _ => nest.IsInner

/-- From a part with a nest around it, the walk goes to parts with the nests that
they enter. -/
theorem LiesIn.child
    {child : Site}
    (liesIn : site.LiesIn nest)
    (wellFormed : site.part.WellFormed Token.IsName)
    (isChild : child ∈ site.children) :
    child.LiesIn (nest.enter site.part child.part) := by
  obtain ⟨here, kind, shape⟩ := liesIn
  cases child_of_mem_children isChild with
  | grouping | operand | binaryLeft | logicalLeft | assigned | callee | object | valueSet
  | firstExpression | evaluated | printed | condition | loopCondition | firstStatement =>
    exact ⟨here, fun _ => kind (by simp), shape⟩
  | @binaryRight around walk first | @logicalRight around walk first
  | @arguments around walk first | @objectSet around walk _ first
  | @laterExpressions around walk first | @thenBranch around walk first
  | @loopBody around walk first =>
    have walked := (stays_expression around first walk).scopes
    exact ⟨walked ▸ here, fun _ => kind (by simp), shape⟩
  | initializer =>
    rw [Part.WellFormed, Stmt.WellFormed] at wellFormed
    refine ⟨?_, fun _ => kind (by simp), shape⟩
    dsimp only
    rw [scopes_declare, marks_declareName wellFormed.1]
    exact here
  | block => exact ⟨congrArg _ here, fun _ => kind (by simp), shape⟩
  | elseBranch =>
    rw [Part.WellFormed, Stmt.WellFormed] at wellFormed
    refine ⟨?_, fun _ => kind (by simp), shape⟩
    dsimp only
    rw [scopes_statement _ _ _ wellFormed.2.1.2, marks_bindDeclared wellFormed.2.1.2,
      (stays_expression _ _ _).scopes]
    exact here
  | function =>
    refine ⟨?_, fun _ => kind (by simp), shape⟩
    dsimp only
    rw [scopes_bind]
    exact (marks_bindDeclared wellFormed _).trans here
  | returned =>
    refine ⟨?_, fun _ => kind (by simp), shape⟩
    dsimp only
    split
    · exact here
    · exact here
  | classMethods =>
    refine ⟨?_, fun _ => rfl, ⟨_, _, rfl⟩⟩
    dsimp only [enter]
    rw [scopes_bind]
    exact congrArg _ ((marks_bindDeclared wellFormed _).trans here)
  -- The superclass is read before any scope of the class is entered.
  | @superclass around walk name reference =>
    have bound := (marks_bindDeclared wellFormed walk.scopes).trans here
    refine ⟨?_, fun notSuperclass => absurd rfl (notSuperclass reference), shape⟩
    dsimp only [checkSuperclass]
    split
    · exact (scopes_bind name.lexeme walk) ▸ bound
    · exact (scopes_bind name.lexeme walk) ▸ bound
  | subclassMethods =>
    refine ⟨?_, fun _ => rfl, ⟨_, _, rfl⟩⟩
    dsimp only [enter]
    rw [scopes_enterSubclass, scopes_bind]
    exact congrArg (fun outer => (true, false) :: (false, true) :: outer)
      ((marks_bindDeclared wellFormed _).trans here)
  | laterStatements =>
    rw [Part.WellFormed, Stmt.AllWellFormed] at wellFormed
    refine ⟨?_, fun _ => kind (by simp), shape⟩
    dsimp only
    rw [scopes_statement _ _ _ wellFormed.1, marks_bindDeclared wellFormed.1]
    exact here
  | body =>
    rw [Part.WellFormed, FunctionDecl.WellFormed] at wellFormed
    refine ⟨?_, fun _ => kind (by simp), shape⟩
    dsimp only
    rw [scopes_enterFunction, List.map_cons, marks_parameterScope wellFormed.2.1]
    exact congrArg _ here
  | firstMethod =>
    obtain ⟨owner, outer, rfl⟩ := shape
    exact ⟨here, fun _ => kind (by simp), trivial⟩
  | laterMethods =>
    rw [Part.WellFormed, FunctionDecl.AllWellFormed] at wellFormed
    obtain ⟨owner, outer, rfl⟩ := shape
    refine ⟨?_, fun _ => kind (by simp), ⟨owner, outer, rfl⟩⟩
    dsimp only
    rw [scopes_function _ _ _ wellFormed.1]
    exact here

/-- Every site lies in what is around it. -/
theorem Under.liesIn
    (under : Under root site nest)
    (sound : Sound root)
    (start : root.LiesIn .program) :
    site.LiesIn nest := by
  induction under with
  | start => exact start
  | step under isChild inductionHypothesis =>
    exact inductionHypothesis.child (under.within.sound sound).wellFormed isChild

/-- The receiver is found at the innermost frame that has one. -/
theorem distance?_self
    {walk : Resolution}
    (marked : walk.scopes.map marks = nest.marks) :
    walk.distance? selfName 0 = nest.marks.findIdx? (·.1) := by
  rw [← marked, List.findIdx?_map, distance?]
  simp [marks, Function.comp_def]

/-- The superclass is found at the innermost frame that has one. -/
theorem distance?_superclass
    {walk : Resolution}
    (marked : walk.scopes.map marks = nest.marks) :
    walk.distance? superclassName 0 = nest.marks.findIdx? (·.2) := by
  rw [← marked, List.findIdx?_map, distance?]
  simp [marks, Function.comp_def]

section Keywords

variable {around : Surroundings} {walk : Resolution} {keyword : Reference}

/-- The distance of `this` is the depth inside of the innermost method around it. -/
theorem Under.filed_self
    (under : Under root ⟨around, .expression (.self keyword), walk⟩ nest)
    (sound : Sound root)
    (start : root.LiesIn .program) :
    keyword.name.lexeme = selfName ∧ ∃ owner declaration depth,
      Nest.InMethod owner declaration depth nest ∧
        root.outcome.distances[keyword.id]? = some depth := by
  have reached := under.within.sound sound
  have liesIn := under.liesIn sound start
  have spelled : keyword.name.lexeme = selfName := by
    have wellFormed := reached.wellFormed
    rwa [Part.WellFormed, Expr.WellFormed] at wellFormed
  have member : keyword.id ∈ (Part.expression (.self keyword)).ids := by simp [Part.ids, Expr.ids]
  have clean := reached.clean
  have filed := (under.within.filed sound member).1
  rw [outcome, Resolution.expression, readSelf] at clean filed
  have inClass : nest.classKind ≠ .none := by
    rw [← liesIn.kind (by simp)]
    intro outside
    rw [outside] at clean
    simp [report] at clean
  obtain ⟨owner, declaration, depth, inside, -⟩ := Nest.exists_inMethod liesIn.shape inClass
  refine ⟨spelled, owner, declaration, depth, inside, ?_⟩
  have found : (walk.file around keyword 0).distances[keyword.id]? = some depth := by
    rw [getElem?_file around (reached.fresh _ member), spelled, distance?_self liesIn.marks]
    exact inside.findIdx?_self
  rw [filed]
  rw [← liesIn.kind (by simp)] at inClass
  dsimp only at inClass
  split
  · rename_i outside
    exact absurd outside inClass
  · exact found
  · exact found

/-- The distance of `super` is one more than the depth inside of the innermost method
around it, and the class of that method has a superclass. -/
theorem Under.filed_inherited
    {method : Token}
    (under : Under root ⟨around, .expression (.inherited keyword method), walk⟩ nest)
    (sound : Sound root)
    (start : root.LiesIn .program) :
    ∃ owner declaration depth reference, Nest.InMethod owner declaration depth nest ∧
      owner.superclass = some reference ∧
        root.outcome.distances[keyword.id]? = some (depth + 1) := by
  have reached := under.within.sound sound
  have liesIn := under.liesIn sound start
  have spelled : keyword.name.lexeme = superclassName := by
    have wellFormed := reached.wellFormed
    rwa [Part.WellFormed, Expr.WellFormed] at wellFormed
  have member : keyword.id ∈ (Part.expression (.inherited keyword method)).ids := by
    simp [Part.ids, Expr.ids]
  have clean := reached.clean
  have filed := (under.within.filed sound member).1
  have kind := liesIn.kind (by simp)
  rw [outcome, Resolution.expression, readInherited] at clean filed
  split at clean
  · simp [report] at clean
  · simp [report] at clean
  · rename_i isSubclass
    rw [isSubclass] at filed kind
    obtain ⟨owner, declaration, depth, inside, ownerKind⟩ :=
      Nest.exists_inMethod liesIn.shape (by rw [← kind]; simp)
    rw [← kind] at ownerKind
    cases superclass : owner.superclass with
    | none => simp [ClassDecl.kind, superclass] at ownerKind
    | some reference =>
      refine ⟨owner, declaration, depth, reference, inside, superclass, ?_⟩
      rw [filed]
      dsimp only
      rw [getElem?_file around (reached.fresh _ member), spelled, distance?_superclass liesIn.marks]
      exact inside.findIdx?_superclass superclass

end Keywords

end Site
end TreeWalk
