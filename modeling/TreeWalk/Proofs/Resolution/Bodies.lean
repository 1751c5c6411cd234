import TreeWalk.Proofs.Resolution.Site

/-!
# References inside of functions

Of the references of a program, those inside of functions and methods may be read
again long after the program has run.  The walk tells them from the others by the
kind of function around it: it lists exactly those references outside of all
functions for which it files a distance.
-/

namespace TreeWalk

mutual

/-- The numbers of the references inside of functions and methods of a
statement. -/
def Stmt.bodyIds : Stmt -> List Nat
  | .expression _ => []
  | .print _ => []
  | .declare _ _ => []
  | .block body => Stmt.listBodyIds body
  | .conditional _ thenBranch elseBranch =>
    thenBranch.bodyIds ++ Stmt.optionBodyIds elseBranch
  | .loop _ body => body.bodyIds
  | .function declaration => declaration.ids
  | .returns _ _ => []
  | .classDecl _ _ methods => FunctionDecl.listIds methods

/-- The numbers of the references inside of functions and methods of
statements. -/
def Stmt.listBodyIds : List Stmt -> List Nat
  | [] => []
  | first :: rest => first.bodyIds ++ Stmt.listBodyIds rest

/-- The numbers of the references inside of functions and methods of a statement
that may be missing. -/
def Stmt.optionBodyIds : Option Stmt -> List Nat
  | none => []
  | some value => value.bodyIds

end

/-- The numbers of the references inside of functions and methods of a part. -/
def Part.bodyIds : Part -> List Nat
  | expression _ => []
  | expressions _ => []
  | superclass _ => []
  | statement step => step.bodyIds
  | statements steps => Stmt.listBodyIds steps
  | function declaration => declaration.ids
  | methods declarations => FunctionDecl.listIds declarations

mutual

/-- The references in function bodies are references of the statement. -/
theorem Stmt.bodyIds_subset : ∀ step : Stmt, step.bodyIds ⊆ step.ids
  | .expression _ => by simp [Stmt.bodyIds]
  | .print _ => by simp [Stmt.bodyIds]
  | .declare _ _ => by simp [Stmt.bodyIds]
  | .block body => by
    rw [Stmt.bodyIds, Stmt.ids]
    exact Stmt.listBodyIds_subset body
  | .conditional condition thenBranch none => by
    rw [Stmt.bodyIds, Stmt.ids, Stmt.optionBodyIds, Stmt.optionIds, List.append_nil]
    intro id member
    simp [Stmt.bodyIds_subset thenBranch member]
  | .conditional condition thenBranch (some elseBranch) => by
    rw [Stmt.bodyIds, Stmt.ids, Stmt.optionBodyIds, Stmt.optionIds]
    intro id member
    rcases List.mem_append.mp member with inThen | inElse
    · simp [Stmt.bodyIds_subset thenBranch inThen]
    · simp [Stmt.bodyIds_subset elseBranch inElse]
  | .loop condition body => by
    rw [Stmt.bodyIds, Stmt.ids]
    exact List.subset_append_of_subset_right _ (Stmt.bodyIds_subset body)
  | .function declaration => by
    rw [Stmt.bodyIds, Stmt.ids]
    exact List.Subset.refl _
  | .returns _ _ => by simp [Stmt.bodyIds]
  | .classDecl _ superclass functions => by
    rw [Stmt.bodyIds, Stmt.ids]
    exact List.subset_append_right _ _

/-- The references in the function bodies of statements are references of these
statements. -/
theorem Stmt.listBodyIds_subset : ∀ steps : List Stmt, Stmt.listBodyIds steps ⊆ Stmt.listIds steps
  | [] => by simp [Stmt.listBodyIds]
  | first :: rest => by
    rw [Stmt.listBodyIds, Stmt.listIds]
    exact List.append_subset.mpr
      ⟨List.subset_append_of_subset_left _ (Stmt.bodyIds_subset first),
        List.subset_append_of_subset_right _ (Stmt.listBodyIds_subset rest)⟩

end

/-- The references in function bodies are references of the part. -/
theorem Part.bodyIds_subset (part : Part) : part.bodyIds ⊆ part.ids := by
  cases part with
  | expression value => exact List.nil_subset _
  | expressions values => exact List.nil_subset _
  | superclass reference => exact List.nil_subset _
  | statement step => exact Stmt.bodyIds_subset step
  | statements steps => exact Stmt.listBodyIds_subset steps
  | function declaration => exact List.Subset.refl _
  | methods declarations => exact List.Subset.refl _

namespace Resolution

/-- The walk from one state to another, outside of all functions, lists every
reference that it files a distance for, apart from some numbers. -/
structure Lists (bodies : List Nat) (before after : Resolution) : Prop where
  filed : ∀ id, id ∉ bodies ->
    after.distances[id]? = before.distances[id]? ∨ id ∈ after.topLevel
  kept : ∀ id, id ∈ before.topLevel -> id ∈ after.topLevel

namespace Lists

variable {bodies others : List Nat} {before middle after : Resolution}

/-- A step that files and lists nothing. -/
theorem of_eq
    (distances : after.distances = before.distances)
    (topLevel : after.topLevel = before.topLevel) :
    Lists [] before after :=
  ⟨fun _ _ => .inl (by rw [distances]), fun _ listed => by rwa [topLevel]⟩

/-- Two steps of the walk list what each of them does. -/
theorem trans
    (one : Lists bodies before middle)
    (other : Lists others middle after) :
    Lists (bodies ++ others) before after := by
  refine ⟨fun id absent => ?_, fun id listed => other.kept id (one.kept id listed)⟩
  rw [List.mem_append, not_or] at absent
  rcases other.filed id absent.2 with same | listed
  · rcases one.filed id absent.1 with sameBefore | listedBefore
    · exact .inl (same.trans sameBefore)
    · exact .inr (other.kept id listedBefore)
  · exact .inr listed

/-- A step that files nothing may follow. -/
theorem andThen
    (one : Lists bodies before middle)
    (other : Lists [] middle after) :
    Lists bodies before after := by
  have both := one.trans other
  rwa [List.append_nil] at both

/-- Whatever is walked inside of a function is among the numbers left out. -/
theorem ofFunction
    {kind : FunctionKind}
    (adds : Adds kind bodies before after)
    (inside : kind ≠ .none) :
    Lists bodies before after :=
  ⟨fun id absent => .inl (adds.distances id absent), fun _ listed => by
    rwa [adds.inFunction inside]⟩

end Lists

theorem lists_declare (name : String) (walk : Resolution) :
    Lists [] walk (walk.declare name) := by
  unfold declare
  split
  · exact .of_eq rfl rfl
  · split <;> exact .of_eq rfl rfl

theorem lists_define (name : String) (walk : Resolution) :
    Lists [] walk (walk.define name) := by
  unfold define
  split <;> exact .of_eq rfl rfl

theorem lists_report (token : Token) (fault : StaticFault) (walk : Resolution) :
    Lists [] walk (walk.report token fault) :=
  .of_eq rfl rfl

theorem lists_enter (scope : Bindings Binding) (walk : Resolution) :
    Lists [] walk (walk.enter scope) :=
  .of_eq rfl rfl

theorem lists_leave (walk : Resolution) : Lists [] walk walk.leave :=
  .of_eq rfl rfl

theorem lists_bind (name : String) (walk : Resolution) :
    Lists [] walk ((walk.declare name).define name) :=
  (lists_declare name walk).andThen (lists_define name _)

section Outside

variable {around : Surroundings} (outside : around.functionKind = .none)

include outside

/-- Outside functions, filing a reference lists nothing. -/
theorem lists_file (reference : Reference) (skip : Nat) (walk : Resolution) :
    Lists [] walk (walk.file around reference skip) := by
  unfold file
  split
  · exact .of_eq rfl rfl
  · simp only [if_pos outside]
    refine ⟨fun id _ => ?_, fun id listed => Array.mem_push.mpr (.inl listed)⟩
    by_cases same : id = reference.id
    · exact .inr (Array.mem_push.mpr (.inr same))
    · left
      simp only [Std.TreeMap.getElem?_insert, Nat.compare_eq_eq]
      rw [if_neg (Ne.symm same)]

/-- Outside functions, reading a name lists nothing. -/
theorem lists_readName (reference : Reference) (walk : Resolution) :
    Lists [] walk (walk.readName around reference) := by
  unfold readName
  dsimp only
  split
  · exact lists_file outside reference 0 walk
  · split
    · split
      · exact lists_file outside reference 1 walk
      · exact lists_report _ _ walk
    · exact lists_file outside reference 0 walk

theorem lists_readSelf (keyword : Reference) (walk : Resolution) :
    Lists [] walk (walk.readSelf around keyword) := by
  unfold readSelf
  split
  · exact lists_report _ _ walk
  · exact lists_file outside keyword 0 walk
  · exact lists_file outside keyword 0 walk

theorem lists_readInherited (keyword : Reference) (walk : Resolution) :
    Lists [] walk (walk.readInherited around keyword) := by
  unfold readInherited
  split
  · exact lists_report _ _ walk
  · exact lists_report _ _ walk
  · exact lists_file outside keyword 0 walk

end Outside

mutual

/-- Outside functions, an expression lists nothing. -/
theorem lists_expression {around : Surroundings} (outside : around.functionKind = .none) :
    ∀ (value : Expr) (walk : Resolution), Lists [] walk (expression around value walk)
  | .literal _, walk => by
    rw [expression]
    exact .of_eq rfl rfl
  | .grouping inner, walk => by
    rw [expression]
    exact lists_expression outside inner walk
  | .unary _ right, walk => by
    rw [expression]
    exact lists_expression outside right walk
  | .binary left _ right, walk => by
    rw [expression]
    exact (lists_expression outside left walk).andThen (lists_expression outside right _)
  | .logical left _ right, walk => by
    rw [expression]
    exact (lists_expression outside left walk).andThen (lists_expression outside right _)
  | .read target, walk => by
    rw [expression]
    exact lists_readName outside target walk
  | .assign target value, walk => by
    rw [expression]
    exact (lists_expression outside value walk).andThen (lists_file outside target 0 _)
  | .call callee _ arguments, walk => by
    rw [expression]
    exact (lists_expression outside callee walk).andThen (lists_expressions outside arguments _)
  | .property object _, walk => by
    rw [expression]
    exact lists_expression outside object walk
  | .setProperty object _ value, walk => by
    rw [expression]
    exact (lists_expression outside value walk).andThen (lists_expression outside object _)
  | .self keyword, walk => by
    rw [expression]
    exact lists_readSelf outside keyword walk
  | .inherited keyword _, walk => by
    rw [expression]
    exact lists_readInherited outside keyword walk

/-- Outside functions, expressions list nothing. -/
theorem lists_expressions {around : Surroundings} (outside : around.functionKind = .none) :
    ∀ (values : List Expr) (walk : Resolution), Lists [] walk (expressions around values walk)
  | [], walk => by
    rw [expressions]
    exact .of_eq rfl rfl
  | first :: rest, walk => by
    rw [expressions]
    exact (lists_expression outside first walk).andThen (lists_expressions outside rest _)

end

section Outside

variable {around : Surroundings} (outside : around.functionKind = .none)

include outside

theorem lists_optionalExpression (value : Option Expr) (walk : Resolution) :
    Lists [] walk (optionalExpression around value walk) := by
  cases value with
  | none => exact .of_eq rfl rfl
  | some value => exact lists_expression outside value walk

/-- The superclass of a class is read outside of the class. -/
theorem lists_enterSubclass (name : Token) (superclass : Reference) (walk : Resolution) :
    Lists [] walk (walk.enterSubclass around name superclass) := by
  rw [enterSubclass_eq]
  have checked : Lists [] walk (walk.checkSuperclass name superclass) := by
    unfold checkSuperclass
    split <;> exact .of_eq rfl rfl
  have inside : ({ around with classKind := .subclass } : Surroundings).functionKind = .none :=
    outside
  exact (checked.andThen (lists_readName inside superclass _)).andThen (lists_enter _ _)

end Outside

/-- Methods are functions whatever is around their class. -/
theorem lists_methods (around : Surroundings) (functions : List FunctionDecl) :
    ∀ walk, Lists (FunctionDecl.listIds functions) walk (methods around functions walk) := by
  induction functions with
  | nil =>
    intro walk
    rw [methods]
    exact .of_eq rfl rfl
  | cons first rest inductionHypothesis =>
    intro walk
    rw [methods, FunctionDecl.listIds]
    exact (Lists.ofFunction (adds_function _ first walk) (methodKind_ne_none _)).trans
      (inductionHypothesis _)

mutual

/-- Outside functions, a statement lists the references in its function bodies, in order.
-/
theorem lists_statement {around : Surroundings} (outside : around.functionKind = .none) :
    ∀ (step : Stmt) (walk : Resolution), Lists step.bodyIds walk (statement around step walk)
  | .expression value, walk => by
    rw [statement, Stmt.bodyIds]
    exact lists_expression outside value walk
  | .print value, walk => by
    rw [statement, Stmt.bodyIds]
    exact lists_expression outside value walk
  | .declare name initializer, walk => by
    rw [statement, Stmt.bodyIds]
    have initialized := lists_optionalExpression outside initializer (walk.declare name.lexeme)
    exact ((lists_declare name.lexeme walk).andThen initialized).andThen
      (lists_define name.lexeme _)
  | .block body, walk => by
    rw [statement, Stmt.bodyIds]
    exact (lists_enter .empty walk).trans
      ((lists_statements outside body _).andThen (lists_leave _))
  | .conditional condition thenBranch elseBranch, walk => by
    rw [statement, Stmt.bodyIds]
    have tested := lists_expression outside condition walk
    exact (tested.trans (lists_statement outside thenBranch _)).trans
      (lists_optionalStatement outside elseBranch _)
  | .loop condition body, walk => by
    rw [statement, Stmt.bodyIds]
    exact (lists_expression outside condition walk).trans (lists_statement outside body _)
  | .function declaration, walk => by
    rw [statement, Stmt.bodyIds]
    have inside := adds_function { around with functionKind := .function } declaration
      ((walk.declare declaration.name.lexeme).define declaration.name.lexeme)
    exact (lists_bind declaration.name.lexeme walk).trans (.ofFunction inside (by simp))
  | .returns keyword value, walk => by
    rw [statement, Stmt.bodyIds, if_pos outside]
    exact (lists_report keyword .returnAtTopLevel walk).andThen
      (lists_optionalExpression outside value _)
  | .classDecl name none functions, walk => by
    rw [statement, Stmt.bodyIds]
    exact ((lists_bind name.lexeme walk).andThen (lists_enter _ _)).trans
      ((lists_methods _ functions _).andThen (lists_leave _))
  | .classDecl name (some superclass) functions, walk => by
    rw [statement, Stmt.bodyIds]
    have named := (lists_bind name.lexeme walk).andThen
      (lists_enterSubclass outside name superclass _)
    exact (named.andThen (lists_enter _ _)).trans
      (((lists_methods _ functions _).andThen (lists_leave _)).andThen (lists_leave _))

/-- Outside functions, statements list the references in their function bodies, in order.
-/
theorem lists_statements {around : Surroundings} (outside : around.functionKind = .none) :
    ∀ (steps : List Stmt) (walk : Resolution),
      Lists (Stmt.listBodyIds steps) walk (statements around steps walk)
  | [], walk => by
    rw [statements, Stmt.listBodyIds]
    exact .of_eq rfl rfl
  | first :: rest, walk => by
    rw [statements, Stmt.listBodyIds]
    exact (lists_statement outside first walk).trans (lists_statements outside rest _)

/-- Outside functions, a branch lists the references in its function bodies, in order. -/
theorem lists_optionalStatement {around : Surroundings} (outside : around.functionKind = .none) :
    ∀ (step : Option Stmt) (walk : Resolution),
      Lists (Stmt.optionBodyIds step) walk (optionalStatement around step walk)
  | none, walk => by
    rw [optionalStatement, Stmt.optionBodyIds]
    exact .of_eq rfl rfl
  | some step, walk => by
    rw [optionalStatement, Stmt.optionBodyIds]
    exact lists_statement outside step walk

end

end Resolution

namespace Site

open Resolution

/-- The walk over a part gets to a reference inside of a function. -/
def Reaches (root : Site) (id : Nat) : Prop :=
  ∃ site, Within root site ∧ site.around.functionKind ≠ .none ∧ id ∈ site.part.ids

/-- A reference in a method's body is reached through the method. -/
theorem reaches_methods
    {root : Site}
    {around : Surroundings}
    {functions : List FunctionDecl}
    {id : Nat} :
    ∀ {walk : Resolution}, Within root ⟨around, .methods functions, walk⟩ ->
      id ∈ FunctionDecl.listIds functions -> Reaches root id := by
  induction functions with
  | nil => exact fun _ member => nomatch member
  | cons first rest inductionHypothesis =>
    intro walk within member
    rw [FunctionDecl.listIds, List.mem_append] at member
    rcases member with inFirst | inRest
    · exact ⟨_, within.step List.mem_cons_self, methodKind_ne_none _, inFirst⟩
    · exact inductionHypothesis (within.step (List.mem_cons_of_mem _ List.mem_cons_self)) inRest

mutual

/-- A reference in a function body of a statement is reached through the innermost
function that has it. -/
theorem reaches_statement
    {root : Site}
    {around : Surroundings}
    {id : Nat} :
    ∀ {step : Stmt} {walk : Resolution}, Within root ⟨around, .statement step, walk⟩ ->
      id ∈ step.bodyIds -> Reaches root id
  | .expression _, _, _, member => by
    rw [Stmt.bodyIds] at member
    exact nomatch member
  | .print _, _, _, member => by
    rw [Stmt.bodyIds] at member
    exact nomatch member
  | .declare _ _, _, _, member => by
    rw [Stmt.bodyIds] at member
    exact nomatch member
  | .block body, _, within, member => by
    rw [Stmt.bodyIds] at member
    exact reaches_statements (within.step List.mem_cons_self) member
  | .conditional condition thenBranch none, _, within, member => by
    rw [Stmt.bodyIds, Stmt.optionBodyIds, List.append_nil] at member
    exact reaches_statement (within.step (List.mem_cons_of_mem _ List.mem_cons_self)) member
  | .conditional condition thenBranch (some elseBranch), _, within, member => by
    rw [Stmt.bodyIds, Stmt.optionBodyIds, List.mem_append] at member
    rcases member with inThen | inElse
    · exact reaches_statement (within.step (List.mem_cons_of_mem _ List.mem_cons_self)) inThen
    · exact reaches_statement (within.step
        (List.mem_cons_of_mem _ (List.mem_cons_of_mem _ List.mem_cons_self))) inElse
  | .loop condition body, _, within, member => by
    rw [Stmt.bodyIds] at member
    exact reaches_statement (within.step (List.mem_cons_of_mem _ List.mem_cons_self)) member
  | .function declaration, _, within, member => by
    rw [Stmt.bodyIds] at member
    exact ⟨_, within.step List.mem_cons_self, by simp, member⟩
  | .returns _ _, _, _, member => by
    rw [Stmt.bodyIds] at member
    exact nomatch member
  | .classDecl name none functions, _, within, member => by
    rw [Stmt.bodyIds] at member
    exact reaches_methods (within.step List.mem_cons_self) member
  | .classDecl name (some superclass) functions, _, within, member => by
    rw [Stmt.bodyIds] at member
    exact reaches_methods (within.step (List.mem_cons_of_mem _ List.mem_cons_self)) member

/-- A reference in a function body of statements is reached through the statement that has
it. -/
theorem reaches_statements
    {root : Site}
    {around : Surroundings}
    {id : Nat} :
    ∀ {steps : List Stmt} {walk : Resolution}, Within root ⟨around, .statements steps, walk⟩ ->
      id ∈ Stmt.listBodyIds steps -> Reaches root id
  | [], _, _, member => by
    rw [Stmt.listBodyIds] at member
    exact nomatch member
  | first :: rest, _, within, member => by
    rw [Stmt.listBodyIds, List.mem_append] at member
    rcases member with inFirst | inRest
    · exact reaches_statement (within.step List.mem_cons_self) inFirst
    · exact reaches_statements (within.step (List.mem_cons_of_mem _ List.mem_cons_self)) inRest

end

/-- In a program that is walked from the start, the references that have a
distance and are not listed are those inside of functions that have one. -/
theorem filed_unlisted_iff
    {around : Surroundings}
    {steps : List Stmt}
    {walk : Resolution}
    (sound : Sound ⟨around, .statements steps, walk⟩)
    (outside : around.functionKind = .none)
    (unfiled : walk.distances = ∅)
    (id distance : Nat) :
    (statements around steps walk).distances[id]? = some distance ∧
        id ∉ (statements around steps walk).topLevel ↔
      id ∈ Stmt.listBodyIds steps ∧
        (statements around steps walk).distances[id]? = some distance := by
  constructor
  · rintro ⟨filed, unlisted⟩
    refine ⟨?_, filed⟩
    by_cases inBody : id ∈ Stmt.listBodyIds steps
    · exact inBody
    · rcases (lists_statements outside steps walk).filed id inBody with same | listed
      · rw [filed, unfiled, Std.TreeMap.getElem?_emptyc] at same
        cases same
      · exact absurd listed unlisted
  · rintro ⟨inBody, filed⟩
    obtain ⟨site, within, inside, member⟩ := reaches_statements .refl inBody
    exact ⟨filed, within.not_mem_topLevel sound inside member⟩

end Site
end TreeWalk
